import DjQueue.Fencing
import DjQueue.System.Operations

/-!
# Every operation keeps the tables sound

One lemma for each operation that is more than one transaction or takes something from its
caller, and from these the two results about any operation: `JobOperation.moves` and
`Operation.keeps`.
-/

namespace DjQueue

open Relational

/-! ## What a raise leaves -/

namespace RollsBack

variable {α β : Type}

/-- A write that is followed by nothing that raises. -/
theorem bind_pure {x : Op α} (rolls : RollsBack x) (f : α → β) :
    RollsBack (x >>= fun a => pure (f a)) := by
  intro w e w' raised
  rcases Raises.of_bind raised with early | ⟨a, m, -, late⟩
  · exact rolls _ _ _ early
  · cases late

theorem ite {c : Prop} [Decidable c] {x y : Op α} (first : RollsBack x) (second : RollsBack y) :
    RollsBack (if c then x else y) := by
  split
  · exact first
  · exact second

theorem modifyDb (f : Db → Db) : RollsBack (modifyDb f) := by
  intro w e w' raised
  cases raised

theorem enqueueJobsBulk (env : Env) (calls : List (TaskCall × JobId)) (validate : Bool) :
    RollsBack (enqueueJobsBulk env calls validate) :=
  bind (Reads.ofExcept _) fun _ => ite (Reads.pure _).raises <|
    bind Reads.timezoneNow fun _ => bind (Reads.ofExcept _) fun _ => atomic _

theorem claimReadyJobs (env : Env) (limit : Int) (queues : QueueSelectors)
    (process : Option Process) : RollsBack (claimReadyJobs env limit queues process) :=
  ite (Reads.pure _).raises (atomic _)

theorem promoteScheduledJobs (env : Env) (batchSize : Int) :
    RollsBack (promoteScheduledJobs env batchSize) :=
  bind Reads.timezoneNow fun _ => atomic _

theorem promoteFailedJobRetries (env : Env) (batchSize : Int) :
    RollsBack (promoteFailedJobRetries env batchSize) :=
  bind Reads.timezoneNow fun _ => atomic _

theorem promoteExpiredBlockedJobs (env : Env) (batchSize : Int) :
    RollsBack (promoteExpiredBlockedJobs env batchSize) :=
  bind Reads.timezoneNow fun _ => atomic _

theorem cleanupExpiredSemaphores (batchSize : PyValue) :
    RollsBack (cleanupExpiredSemaphores batchSize) :=
  bind (Reads.ofExcept _) fun _ => bind Reads.timezoneNow fun _ => atomic _

/-- The retention operations do nothing where no age is configured. -/
theorem retained {age : Option Int} {x : Int → Op Nat} :
    RollsBack (match age with
      | none => pure 0
      | some age => transactionAtomic (x age)) := by
  cases age with
  | none => exact (Reads.pure _).raises
  | some age => exact atomic _

theorem saveProcesses (t : Table Process) : RollsBack (saveProcesses t) :=
  ite (modifyDb _) (Reads.throw _).raises

theorem registerProcess (env : Env) (pid : Int) (name : String) (supervisorId : Option Nat) :
    RollsBack (registerProcess env pid name supervisorId) :=
  bind Reads.timezoneNow fun _ => bind Reads.getDb fun _ =>
    ite (bind_pure (saveProcesses _) _) (Reads.throw _).raises

theorem touchProcessRow (processId : Nat) : RollsBack (touchProcessRow processId) :=
  bind Reads.timezoneNow fun _ => modifyDb _

theorem failClaimedJobs (env : Env) (jobs : List Job) (failure : Failure) :
    RollsBack (failClaimedJobs env jobs failure) :=
  ite (Reads.pure _).raises (ite (Reads.throw _).raises (atomic _))

theorem unblockNextBlockedJob (env : Env) (key : String) (limit duration : Int)
    (mode : SlotHandoffMode) : RollsBack (unblockNextBlockedJob env key limit duration mode) :=
  bind Reads.timezoneNow fun _ => atomic _

theorem semaphoreRelease (env : Env) (key : String) (limit duration : Int) :
    RollsBack (semaphoreRelease env key limit duration) := by
  refine bind Reads.timezoneNow fun now => bind (Reads.ofExcept _) fun expiresAt =>
    bind_pure ?_ _
  exact bind Reads.getDb fun _ => bind (Reads.ensureFits _ _) fun _ =>
    bind Reads.getDb fun _ => bind_pure (modifyDb _) _

end RollsBack

/-! ## One transaction -/

section Moves

variable {α : Type} {tracked : Option (String × Int)} {env : Env} {fresh : List JobId} {w : World}

theorem Sound.unchanged {x : Op α} {e : PyError} {w' : World} (sound : Sound tracked w.db)
    (rolls : RollsBack x) (raised : Raises x w e w') :
    Moves tracked env.config.backendAlias fresh w.db w'.db := by
  rw [rolls _ _ _ raised]
  exact Moves.refl sound

/-- An operation that undoes itself when it raises and keeps the books when it returns. -/
theorem Sound.moves_of_accounts {x : Op α} (sound : Sound tracked w.db) (rolls : RollsBack x)
    (accounts : ∀ a v w', a.env = env → a.tracked = tracked → Accounts a [] 0 w.db →
      Runs x w v w' → Accounts a [] 0 w'.db) :
    Moves tracked env.config.backendAlias fresh w.db (finalState x w).db := by
  rcases runs_or_raises x w with ⟨v, run, -⟩ | ⟨e, raised, -⟩
  · obtain ⟨a, opened⟩ := sound.opened env [] List.nodup_nil
      (fun _ mem => absurd mem List.not_mem_nil) fresh
    exact opened.moves (accounts a v _ opened.env opened.tracked opened.accounts run)
  · exact sound.unchanged rolls raised

theorem finalState_getDb {α : Type} (next : Db → Op α) :
    finalState (getDb >>= next) w = finalState (next w.db) w := rfl

/-- `_fail_claimed_jobs` of jobs that were just read from the claims. -/
theorem Sound.moves_failClaimedJobs (sound : Sound tracked w.db) {jobs : List Job}
    (there : ∀ j ∈ jobs, j ∈ w.db.jobs) (failure : Failure) :
    Moves tracked env.config.backendAlias fresh w.db
      (finalState (failClaimedJobs env jobs failure) w).db := by
  refine sound.moves_of_accounts (RollsBack.failClaimedJobs env jobs failure) ?_
  rintro a v w' rfl - good run
  exact good.failClaimedJobs (fun j mem => good.knows j (there j mem)) run

/-- The jobs claimed by a process are jobs. -/
theorem jobs_of_jobsClaimedBy {db : Db} {processId : Nat} {j : Job}
    (mem : j ∈ jobsClaimedBy db processId) : j ∈ db.jobs := by
  obtain ⟨r, inRows, rfl⟩ := List.mem_map.mp mem
  obtain ⟨row, -, pair⟩ := List.mem_filterMap.mp inRows
  obtain ⟨i, found, rfl⟩ := Option.map_eq_some_iff.mp pair
  exact (mem_of_findJob found).1

/-- A process of the backend stays one. -/
theorem Keeps.ownProcessId {A : String} {db db' : Db} {id : Nat} (kept : Keeps tracked A db db')
    (own : OwnProcessId A db id) : OwnProcessId A db' id := by
  intro p mem same
  by_contra foreign
  have seen : p ∈ (db'.view p.backendAlias).processes :=
    List.mem_filter.mpr ⟨mem, beq_iff_eq.mpr rfl⟩
  rw [kept.view _ foreign] at seen
  exact foreign (own p (List.mem_of_mem_filter seen) same)

/-- A row of the table is a process of its backend. -/
theorem Sound.ownProcessId {db : Db} (sound : Sound tracked db) {p : Process}
    (mem : p ∈ db.processes.rows) : OwnProcessId p.backendAlias db p.id := by
  obtain ⟨⟨a, -, good⟩, -⟩ := sound
  intro q there same
  rw [List.inj_on_of_nodup_map good.registry.processIds there mem same]

theorem Sound.moves_deregisterProcess (sound : Sound tracked w.db) {id : Nat}
    (own : OwnProcessId env.config.backendAlias w.db id) :
    Moves tracked env.config.backendAlias fresh w.db (finalState (deregisterProcess id) w).db := by
  refine sound.moves_of_accounts (RollsBack.atomic _) ?_
  rintro a v w' rfl - good run
  exact good.deregisterProcess own run

/-- The claims are failed in one transaction and the process deleted in another. -/
theorem Sound.moves_failClaimedJobsForProcess (sound : Sound tracked w.db)
    {process : Option Process} {failure : Failure} {deleteProcess : Bool}
    (own : ∀ p, process = some p → deleteProcess = true →
      OwnProcessId env.config.backendAlias w.db p.id) :
    Moves tracked env.config.backendAlias fresh w.db
      (finalState (failClaimedJobsForProcess env process failure deleteProcess) w).db := by
  cases process with
  | none => exact Moves.refl sound
  | some p =>
      have failed : Moves tracked env.config.backendAlias fresh w.db
          (finalState (failClaimedJobs env (jobsClaimedBy w.db p.id) failure) w).db :=
        sound.moves_failClaimedJobs (fun j => jobs_of_jobsClaimedBy) failure
      -- the read of the claims goes away
      change Moves _ _ _ _ (finalState (failClaimedJobs env (jobsClaimedBy w.db p.id) failure >>=
        fun jobs => do
          runIf deleteProcess (deregisterProcess p.id)
          pure jobs) w).db
      rcases finalState_bind (failClaimedJobs env (jobsClaimedBy w.db p.id) failure)
        (fun jobs => do
          runIf deleteProcess (deregisterProcess p.id)
          pure jobs) w with ⟨jobs, -, eq⟩ | eq
      · rw [eq]
        refine failed.trans ?_
        cases deleteProcess with
        | false => exact Moves.refl failed.sound
        | true =>
            have deleted : Moves tracked env.config.backendAlias fresh _ _ :=
              failed.sound.moves_deregisterProcess (failed.toKeeps.ownProcessId (own p rfl rfl))
            rcases finalState_bind (deregisterProcess p.id) (fun _ => pure jobs)
              (finalState (failClaimedJobs env (jobsClaimedBy w.db p.id) failure) w) with
              ⟨-, -, eq'⟩ | eq'
            · exact eq' ▸ deleted
            · exact eq' ▸ deleted
      · rw [eq]
        exact failed

theorem Sound.moves_failClaimedJobsForPid (sound : Sound tracked w.db) (pid : Int)
    (failure : Failure) :
    Moves tracked env.config.backendAlias fresh w.db
      (finalState (failClaimedJobsForPid env pid failure) w).db := by
  unfold failClaimedJobsForPid
  rw [finalState_getDb]
  split
  · rename_i p only
    refine sound.moves_failClaimedJobsForProcess ?_
    rintro q ⟨⟩ -
    have hit : p ∈ w.db.processes.rows.filter (fun p =>
        p.pid == pid && p.backendAlias == env.config.backendAlias) := only ▸ List.mem_cons_self
    simp only [List.mem_filter, Bool.and_eq_true, beq_iff_eq] at hit
    rw [← hit.2.2]
    exact sound.ownProcessId hit.1
  · exact Moves.refl sound

theorem Sound.moves_failClaimedJobsForChild (sound : Sound tracked w.db) (pid : Int) (name : String)
    (supervisorId : Option Nat) (failure : Failure) :
    Moves tracked env.config.backendAlias fresh w.db
      (finalState (failClaimedJobsForChild env pid name supervisorId failure) w).db := by
  refine sound.moves_failClaimedJobsForProcess fun p found _ => ?_
  have hit := List.find?_some found
  simp only [Bool.and_eq_true, beq_iff_eq] at hit
  rw [← hit.2]
  exact sound.ownProcessId (List.mem_of_find?_eq_some found)

end Moves

/-! ## A slot released on its own -/

section Release

variable {tracked : Option (String × Int)} {env : Env} {fresh : List JobId} {key : String}

/-- A key that is not tracked owes no slot. -/
theorem slot_eq_zero {a : Audit} (other : ∀ t, a.tracked = some t → t.1 ≠ key) : a.slot key = 0 := by
  refine Accounts.slot_of_untracked ?_
  rw [← Bool.not_eq_true]
  intro tracks
  obtain ⟨L, tracked⟩ := Accounts.tracked_of_tracks tracks
  exact other _ tracked rfl

/-- A hand-off under a key that is not tracked. -/
theorem Settles.unblockNextBlockedJob (other : ∀ t, tracked = some t → t.1 ≠ key)
    (limit duration : Int) (mode : SlotHandoffMode) :
    Settles tracked env.config.backendAlias fresh
      (unblockNextBlockedJob env key limit duration mode) := by
  intro w sound
  refine sound.moves_of_accounts (RollsBack.unblockNextBlockedJob env key limit duration mode) ?_
  rintro a found w' rfl rfl good run
  have none : a.given key mode = 0 := by
    cases mode with
    | releaseClaimed => exact slot_eq_zero other
    | consumeReleased => rfl
  rcases Accounts.unblockNextBlockedJob (by rw [none]; exact good)
    (fun L tracked => absurd rfl (other _ tracked)) run with ⟨-, kept⟩ | ⟨-, kept⟩
  · exact kept
  · rw [none] at kept
    exact kept

theorem Settles.semaphoreRelease (other : ∀ t, tracked = some t → t.1 ≠ key)
    (limit duration : Int) :
    Settles tracked env.config.backendAlias fresh (semaphoreRelease env key limit duration) := by
  intro w sound
  refine sound.moves_of_accounts (RollsBack.semaphoreRelease env key limit duration) ?_
  rintro a released w' rfl rfl good run
  exact Accounts.semaphoreRelease (by rw [slot_eq_zero other]; exact good)
    (fun L tracked => absurd rfl (other _ tracked)) run

theorem Settles.releaseConcurrencySlot {job : Job}
    (other : ∀ t, tracked = some t → job.concurrencyKey ≠ some t.1) (task : Option Imported) :
    Settles tracked env.config.backendAlias fresh (releaseConcurrencySlot env job task) := by
  unfold DjQueue.releaseConcurrencySlot
  split
  · exact of_reads (Reads.pure _)
  · rename_i key slotKey
    have other : ∀ t, tracked = some t → t.1 ≠ key := by
      rintro t tracked rfl
      exact other t tracked (Option.filter_eq_some_iff.mp slotKey).1
    refine bind (of_reads ?_) fun w settings w' _ sound => ?_
    · refine Reads.bind Reads.getDb fun db => ?_
      split
      · exact Reads.pure _
      · exact Reads.pure _
      · exact Reads.throw _
    · refine (bind (unblockNextBlockedJob other _ _ _) fun w₁ unblocked w₂ _ sound => ?_ :
        Settles tracked env.config.backendAlias fresh (releaseSlot env key _ _)) w' sound
      split
      · exact Moves.refl sound
      · exact bind (semaphoreRelease other _ _) (fun _ _ w₃ _ sound =>
          bind (unblockNextBlockedJob other _ _ _) (fun _ _ _ _ sound => Moves.refl sound) w₃ sound)
          w₂ sound

end Release

/-! ## Any operation -/

/-- What an operation on jobs does, however it ends. -/
theorem JobOperation.moves {tracked : Option (String × Int)} {env : Env} {w : World}
    (op : JobOperation) (sound : Sound tracked w.db) (promised : op.Promised tracked env w.db) :
    Moves tracked env.config.backendAlias op.fresh w.db (op.final env w).db := by
  cases op with
  | enqueueJobWithDispatch call validate jobId =>
      rcases runs_or_raises (DjQueue.enqueueJobWithDispatch env call validate jobId) w with
        ⟨result, run, -⟩ | ⟨e, raised, -⟩
      · exact sound.enqueueJobWithDispatch promised run
      · exact sound.unchanged (RollsBack.enqueueJobWithDispatch env call validate jobId) raised
  | enqueueJobsBulk calls validate =>
      rcases runs_or_raises (DjQueue.enqueueJobsBulk env calls validate) w with
        ⟨result, run, -⟩ | ⟨e, raised, -⟩
      · exact sound.enqueueJobsBulk promised run
      · exact sound.unchanged (RollsBack.enqueueJobsBulk env calls validate) raised
  | claimReadyJobs limit queues process =>
      refine sound.moves_of_accounts (RollsBack.claimReadyJobs env limit queues process) ?_
      rintro a v w' rfl - good run
      exact good.claimReadyJobs promised run
  | completeClaimedJob arg returnValue task =>
      refine sound.moves_of_accounts
        (RollsBack.bind (Reads.resolveClaimedJob env arg) fun _ => RollsBack.atomic _) ?_
      rintro a v w' rfl rfl good run
      exact good.completeClaimedJob promised run
  | failClaimedJob arg failure task =>
      refine sound.moves_of_accounts
        (RollsBack.bind (Reads.resolveClaimedJob env arg) fun _ => RollsBack.atomic _) ?_
      rintro a v w' rfl rfl good run
      exact good.failClaimedJob promised run
  | promoteScheduledJobs batchSize =>
      refine sound.moves_of_accounts (RollsBack.promoteScheduledJobs env batchSize) ?_
      rintro a v w' rfl - good run
      exact good.promoteScheduledJobs run
  | dispatchScheduledJobNow jobId =>
      refine sound.moves_of_accounts (RollsBack.atomic _) ?_
      rintro a v w' rfl - good run
      exact good.dispatchScheduledJobNow run
  | scheduleFailedJobRetry jobId retryAt =>
      refine sound.moves_of_accounts (RollsBack.atomic _) ?_
      rintro a v w' rfl - good run
      exact good.scheduleFailedJobRetry run
  | retryFailedJob jobId =>
      refine sound.moves_of_accounts (RollsBack.atomic _) ?_
      rintro a v w' rfl - good run
      exact good.retryFailedJob run
  | retryFailedJobs jobIds batchSize =>
      refine sound.moves_of_accounts (RollsBack.atomic _) ?_
      rintro a v w' rfl - good run
      exact good.retryFailedJobs run
  | promoteFailedJobRetries batchSize =>
      refine sound.moves_of_accounts (RollsBack.promoteFailedJobRetries env batchSize) ?_
      rintro a v w' rfl - good run
      exact good.promoteFailedJobRetries run
  | discardReadyJobs jobIds batchSize =>
      refine sound.moves_of_accounts (RollsBack.atomic _) ?_
      rintro a v w' rfl - good run
      exact good.discardStateJobs rfl run
  | discardReadyJobsForQueue queueName batchSize =>
      refine sound.moves_of_accounts (RollsBack.atomic _) ?_
      rintro a v w' rfl - good run
      exact good.discardStateJobs rfl run
  | discardScheduledJobs jobIds batchSize =>
      refine sound.moves_of_accounts (RollsBack.atomic _) ?_
      rintro a v w' rfl - good run
      exact good.discardStateJobs rfl run
  | discardBlockedJobs jobIds batchSize =>
      refine sound.moves_of_accounts (RollsBack.atomic _) ?_
      rintro a v w' rfl - good run
      exact good.discardStateJobs rfl run
  | discardFailedJob jobId =>
      refine sound.moves_of_accounts (RollsBack.atomic _) ?_
      rintro a v w' rfl - good run
      exact good.discardStateJobs rfl run
  | discardFailedJobs jobIds batchSize =>
      refine sound.moves_of_accounts (RollsBack.atomic _) ?_
      rintro a v w' rfl - good run
      exact good.discardStateJobs rfl run
  | clearFinishedJobs olderThan taskPath batchSize now =>
      refine sound.moves_of_accounts RollsBack.retained ?_
      rintro a v w' rfl - good run
      exact good.clearFinishedJobs run
  | clearFailedJobs olderThan taskPath batchSize now =>
      refine sound.moves_of_accounts RollsBack.retained ?_
      rintro a v w' rfl - good run
      exact good.clearFailedJobs run
  | clearRecurringExecutions olderThan taskKey batchSize now =>
      refine sound.moves_of_accounts RollsBack.retained ?_
      rintro a v w' rfl - good run
      exact good.clearRecurringExecutions run
  | promoteExpiredBlockedJobs batchSize =>
      refine sound.moves_of_accounts (RollsBack.promoteExpiredBlockedJobs env batchSize) ?_
      rintro a v w' rfl - good run
      exact good.promoteExpiredBlockedJobs run
  | cleanupExpiredSemaphores batchSize =>
      refine sound.moves_of_accounts (RollsBack.cleanupExpiredSemaphores batchSize) ?_
      rintro a v w' rfl - good run
      exact good.cleanupExpiredSemaphores run
  | releaseConcurrencySlot job task =>
      exact Settles.releaseConcurrencySlot promised task w sound
  | registerProcess pid name supervisorId =>
      refine sound.moves_of_accounts (RollsBack.registerProcess env pid name supervisorId) ?_
      rintro a v w' rfl - good run
      exact good.registerProcess promised run
  | touchProcessRow processId =>
      refine sound.moves_of_accounts (RollsBack.touchProcessRow processId) ?_
      rintro a v w' rfl - good run
      exact good.touchProcessRow promised run
  | deregisterProcess processId => exact sound.moves_deregisterProcess promised
  | failOrphanedClaimedJobs failure batchSize =>
      refine sound.moves_of_accounts (RollsBack.atomic _) ?_
      rintro a v w' rfl - good run
      exact good.failOrphanedClaimedJobs run
  | failClaimedJobsForProcess process failure deleteProcess =>
      exact sound.moves_failClaimedJobsForProcess promised
  | failClaimedJobsForPid pid failure => exact sound.moves_failClaimedJobsForPid pid failure
  | failClaimedJobsForChild pid name supervisorId failure =>
      exact sound.moves_failClaimedJobsForChild pid name supervisorId failure
  | pruneStaleProcesses cutoff failure excluded batchSize =>
      refine sound.moves_of_accounts (RollsBack.atomic _) ?_
      rintro a v w' rfl - good run
      exact good.pruneStaleProcesses run

/-- What any operation does, however it ends. -/
theorem Operation.keeps {tracked : Option (String × Int)} {env : Env} {w : World} (op : Operation)
    (sound : Sound tracked w.db) (promised : op.Promised tracked env w.db) :
    Keeps tracked env.config.backendAlias w.db (op.final env w).db := by
  cases op with
  | job op => exact (op.moves sound promised).toKeeps
  | pauseQueue queueName => exact Preserves.pauseQueue queueName w sound
  | resumeQueue queueName resumedAt => exact Preserves.resumeQueue queueName resumedAt w sound
  | scheduleRecurringTask key taskPath schedule payload queueName priority description =>
      exact Preserves.of_edits (EditsTasks.scheduleRecurringTask key taskPath schedule payload
        queueName priority description) w sound
  | unscheduleRecurringTask key =>
      exact Preserves.of_edits (EditsTasks.unscheduleRecurringTask key) w sound
  | upsertStaticRecurringTasks configs =>
      exact Preserves.of_edits (EditsTasks.upsertStaticRecurringTasks configs) w sound
  | fireRecurringTask taskId runAt =>
      exact Preserves.fireRecurringTask promised taskId runAt w sound
  | fireDueRecurringTasks now includeDynamicTasks batchSize =>
      exact Preserves.fireDueRecurringTasks promised now includeDynamicTasks batchSize w sound

end DjQueue
