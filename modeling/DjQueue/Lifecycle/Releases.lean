import DjQueue.Lifecycle.Dispatches
import DjQueue.Slots.WaiterRows

/-!
# Hand-offs, claims and failures along the edges

A slot that is given back makes a waiter ready; a refused waiter goes back to where it was.  So all
of it follows the edges as soon as one leads from the blocked to the ready jobs and none to the
blocked ones.
-/

namespace DjQueue

open Relational

/-- Rows of a state table that are read with their jobs. -/
theorem of_mem_selectRelatedJob {db : Db} {m : StateModel} {rows : List m.Row} {x : m.Row × Job}
    (there : ∀ r ∈ rows, r ∈ (db.table m).rows) (mem : x ∈ selectRelatedJob db rows) :
    rowJobId x.1 ∈ db.stateJobIds m ∧ x.2.id = rowJobId x.1 := by
  rcases mem_selectRelatedJob.mp mem with ⟨inRows, found⟩
  exact ⟨List.mem_map_of_mem (there _ inRows), (mem_of_findJob found).2⟩

/-- What is consumed was selected. -/
theorem mem_of_consumeEachRow {β : Type} {m : StateModel} {pk : β → Nat} :
    ∀ {rows consumed : List β} {w w' : World}, Runs (consumeEachRow m pk rows) w consumed w' →
      ∀ b ∈ consumed, b ∈ rows
  | [], consumed, w, w', run, b, mem => by
      rw [(Runs.of_pure run).1] at mem
      exact mem
  | row :: rows, consumed, w, w', run, b, mem => by
      rcases Runs.of_bind run with ⟨n, w₁, deleted, rest⟩
      rcases Runs.of_bind rest with ⟨others, w₂, tail, rest⟩
      rw [(Runs.of_pure rest).1] at mem
      have later := mem_of_consumeEachRow tail b
      split at mem
      · exact List.mem_cons_of_mem _ (later mem)
      · rcases List.mem_cons.mp mem with rfl | mem
        · exact List.mem_cons_self
        · exact List.mem_cons_of_mem _ (later mem)

theorem mem_of_consumeSelectedRows {β : Type} {env : Env} {m : StateModel} {pk : β → Nat}
    {rows consumed : List β} {w w' : World}
    (run : Runs (consumeSelectedRows env m pk rows) w consumed w') : ∀ b ∈ consumed, b ∈ rows := by
  unfold consumeSelectedRows at run
  split at run
  · exact mem_of_consumeEachRow run
  · rcases Runs.of_bind run with ⟨n, w₁, deleted, rest⟩
    rw [(Runs.of_pure rest).1]
    exact fun _ mem => mem

/-- Slots may be handed on: a waiter of the start may become ready, and nobody else waits. -/
structure HandsOn (edges : List Edge) : Prop where
  ready : (some (.live .blocked), some (.live .ready)) ∈ edges
  waits : ∀ p, (p, some (.live .blocked)) ∉ edges

namespace Steers

variable {edges : List Edge} {start : Db} {env : Env} {key : String} {limit duration : Int}

/-! ## Hand-offs -/

/-- The waiter that is taken for a slot was blocked. -/
theorem consumeBlockedJobPortably {mode : SlotHandoffMode} {now : Time}
    {result : Option (JobRef × Bool)} {w w' : World} (follows : Follows edges start w.db)
    (run : Runs (consumeBlockedJobPortably env mode key limit duration now) w result w') :
    Follows edges start w'.db ∧
      ∀ slot, result = some slot → Comes edges start (some (.live .blocked)) slot.1.id := by
  rcases Runs.of_bind run with ⟨consumed, w₁, taken, rest⟩
  rcases Runs.of_bind taken with ⟨db, w₂, got, body⟩
  rcases of_run_getDb got with ⟨rfl, rfl⟩
  have waiter : Follows edges start w₁.db ∧ ∀ x, consumed = some x →
      Comes edges start (some (.live .blocked)) x.1.jobId := by
    split at body
    · rcases Runs.of_pure body with ⟨rfl, rfl⟩
      exact ⟨follows, fun _ same => by cases same⟩
    · rename_i blocked others waiters
      have here : Comes edges start (some (.live .blocked)) blocked.1.jobId :=
        follows.rows .blocked _ (List.mem_map_of_mem
          (mem_waitersOf.mp (waiters ▸ List.mem_cons_self)).1)
      split at body
      · rcases Runs.of_bind body with ⟨n, w₃, deleted, body⟩
        rcases Runs.of_pure body with ⟨rfl, rfl⟩
        refine ⟨deleteRowsWhere .blocked _ _ _ _ deleted follows, ?_⟩
        intro x same
        cases same
        exact here
      · rcases Runs.of_bind body with ⟨u, w₃, checked, body⟩
        rw [(of_run_ensureStateRowsBelongToBackend checked).1] at body
        rcases Runs.of_bind body with ⟨rows, w₄, deleted, body⟩
        rcases Runs.of_pure body with ⟨rfl, rfl⟩
        refine ⟨consumeSelectedRows env .blocked _ _ _ _ _ deleted follows, ?_⟩
        intro x same
        have mem := mem_of_consumeSelectedRows deleted x (List.mem_of_mem_head? same)
        rw [List.mem_singleton.mp mem]
        exact here
  rcases waiter with ⟨follows₁, waiter⟩
  split at rest
  · rcases Runs.of_pure rest with ⟨rfl, rfl⟩
    exact ⟨follows₁, fun _ same => by cases same⟩
  · rename_i blocked job
    split at rest
    · exact (Runs.of_throw rest).elim
    · rcases Runs.of_bind rest with ⟨given, w₅, asked, rest⟩
      rcases Runs.of_bind rest with ⟨u, w₆, restored, rest⟩
      rcases Runs.of_pure rest with ⟨rfl, rfl⟩
      have here := waiter (blocked, job) rfl
      have follows₂ : Follows edges start w₅.db := of_spares
        (.acquireHandoffSlot slots_courseParts env mode key _ _ _) _ _ _ asked follows₁
      refine ⟨runIf _ (createBlockedExecution here) _ _ _ restored follows₂, ?_⟩
      intro slot same
      cases same
      exact here

/-- The waiter PostgreSQL deletes was blocked. -/
theorem consumeBlockedJobOnPostgres {now : Time} {result : Option (JobRef × Bool)} {w w' : World}
    (follows : Follows edges start w.db)
    (run : Runs (consumeBlockedJobOnPostgres env key limit duration now) w result w') :
    Follows edges start w'.db ∧
      ∀ slot, result = some slot → Comes edges start (some (.live .blocked)) slot.1.id := by
  rcases Runs.of_bind run with ⟨consumed, w₁, taken, rest⟩
  obtain ⟨-, -, body⟩ := checked_of_run_consumeNextBlockedJobWithReleasedSlot taken
  have waiter : Follows edges start w₁.db ∧ ∀ x, consumed = some x →
      Comes edges start (some (.live .blocked)) x.1.1.jobId := by
    split at body
    · rcases Runs.of_pure body with ⟨rfl, rfl⟩
      exact ⟨follows, fun _ same => by cases same⟩
    · rename_i blocked others waiters
      have here : Comes edges start (some (.live .blocked)) blocked.1.jobId :=
        follows.rows .blocked _ (List.mem_map_of_mem
          (mem_waitersOf.mp (waiters ▸ List.mem_cons_self)).1)
      rcases Runs.of_bind body with ⟨n, w₃, updated, body⟩
      have follows₃ : Follows edges start w₃.db := of_spares
        (.updateSlots slots_courseParts _ _ _) _ _ _ updated follows
      split at body
      · rcases Runs.of_pure body with ⟨rfl, rfl⟩
        refine ⟨follows₃, ?_⟩
        intro x same
        cases same
        exact here
      · rcases Runs.of_bind body with ⟨n, w₄, deleted, body⟩
        rcases Runs.of_pure body with ⟨rfl, rfl⟩
        refine ⟨deleteRowsWhere .blocked _ _ _ _ deleted follows₃, ?_⟩
        intro x same
        cases same
        exact here
  rcases waiter with ⟨follows₁, waiter⟩
  split at rest
  · rcases Runs.of_pure rest with ⟨rfl, rfl⟩
    exact ⟨follows₁, fun _ same => by cases same⟩
  · rename_i blocked job given
    split at rest
    · exact (Runs.of_throw rest).elim
    · rcases Runs.of_pure rest with ⟨rfl, rfl⟩
      refine ⟨follows₁, ?_⟩
      intro slot same
      cases same
      exact waiter ((blocked, job), given) rfl

section HandOffs

variable (handsOn : HandsOn edges)

include handsOn

/-- A slot that is handed over takes a job from blocked to ready. -/
theorem unblockNextBlockedJob (mode : SlotHandoffMode) :
    Steers edges start (unblockNextBlockedJob env key limit duration mode) := by
  apply bind (of_reads Reads.timezoneNow)
  intro now w result w' run follows
  rcases Runs.of_bind (Runs.of_atomic run) with ⟨slot, w₁, consumed, rest⟩
  have taken : Follows edges start w₁.db ∧
      ∀ s, slot = some s → Comes edges start (some (.live .blocked)) s.1.id := by
    unfold consumeBlockedJobForSlot at consumed
    split at consumed
    · exact consumeBlockedJobOnPostgres follows consumed
    · exact consumeBlockedJobPortably follows consumed
  rcases taken with ⟨follows₁, waiter⟩
  split at rest
  · rename_i job
    have ready := (waiter (job, true) rfl).along handsOn.waits handsOn.ready
    apply (bind (bind (bind (of_reads Reads.getDb) fun db => ?_) fun _ => runIf _ (throw _))
      fun _ => pure _) _ _ _ rest follows₁
    split
    · exact pure _
    · exact bind (insertRow (m := .ready) (fun _ => rfl) ready) fun _ => pure _
  · exact pure _ _ _ _ rest follows₁

theorem releaseSlot (env : Env) (key : String) (limit duration : Int) :
    Steers edges start (releaseSlot env key limit duration) := by
  apply bind (unblockNextBlockedJob handsOn .releaseClaimed)
  intro unblocked
  split
  · exact pure _
  · exact bind (of_spares (.semaphoreRelease slots_courseParts env key _ _)) fun _ =>
      bind (unblockNextBlockedJob handsOn .consumeReleased) fun _ => pure _

theorem releaseConcurrencySlot (env : Env) (job : Job) (task : Option Imported) :
    Steers edges start (releaseConcurrencySlot env job task) := by
  unfold DjQueue.releaseConcurrencySlot
  split
  · exact pure _
  · exact bind (of_reads (Reads.releaseSettings env job _ task)) fun _ =>
      releaseSlot handsOn env _ _ _

theorem releaseAll (env : Env) : ∀ jobs : List Job, Steers edges start (releaseAll env jobs)
  | [] => pure _
  | job :: jobs => bind (releaseConcurrencySlot handsOn env job none) fun _ => releaseAll env jobs

theorem releaseRecoveredConcurrencyGroup (env : Env) (key : String) (releaseCount : Nat)
    (limit duration : Int) :
    Steers edges start
      (releaseRecoveredConcurrencyGroup env key releaseCount limit duration) := by
  apply bind (of_reads Reads.timezoneNow)
  intro now w jobs w' run follows
  rcases Runs.of_bind run with ⟨expiresAt, w₀, added, rest⟩
  rcases of_run_addSeconds added with ⟨rfl, -, rfl⟩
  rcases Runs.of_bind rest with ⟨db, w₁, got, rest⟩
  rcases of_run_getDb got with ⟨rfl, rfl⟩
  rcases Runs.of_bind rest with ⟨u, w₂, checked, rest⟩
  rw [(of_run_ensureStateRowsBelongToBackend checked).1] at rest
  split at rest
  · exact pure _ _ _ _ rest follows
  · rcases Runs.of_bind rest with ⟨promoted, w₃, consumed, rest⟩
    have follows₃ := consumeSelectedRows env .blocked _ _ _ _ _ consumed follows
    have ready : ∀ r ∈ promoted, Comes edges start (some (.live .ready)) r.2.id := by
      intro r mem
      have selected := mem_of_consumeSelectedRows consumed r mem
      rcases mem_waitersOf.mp (List.mem_of_mem_take (List.mem_of_mem_take selected)) with
        ⟨inTable, -, -, found⟩
      rw [(mem_of_findJob found).2]
      exact (follows.rows .blocked _ (List.mem_map_of_mem inTable)).along handsOn.waits
        handsOn.ready
    apply (bind (of_reads Reads.timezoneNow) fun stamp =>
      bind (of_reads (Reads.ensureFits _ _)) fun _ =>
      bind (of_spares (.saveSemaphore slots_courseParts _ _)) fun _ => ?_) _ _ _ rest follows₃
    intro w₄ jobs₄ w₅ run₄
    rcases Runs.of_bind run₄ with ⟨rows, w₆, built, rest₄⟩
    rcases Runs.of_ofExcept built with ⟨ok, rfl⟩
    apply (bind (bulkCreateReadyExecutions fun r mem => ?_) fun _ => pure _) _ _ _ rest₄
    rcases exists_of_mem_right (forall₂_of_mapM_ok ok) mem with ⟨x, there, made⟩
    have own : r.jobId = x.2.id := jobId_of_readyExecutionRow made
    exact own ▸ ready x there

theorem releaseRecoveredGroups (env : Env) :
    ∀ groups : List (String × List Job), Steers edges start (releaseRecoveredGroups env groups)
  | [] => pure _
  | (key, jobs) :: groups => by
      apply bind
      · apply bind (of_spares (.releaseSettingsOfAll env key jobs))
        intro settings
        split
        · exact bind (releaseRecoveredConcurrencyGroup handsOn env key _ _ _) fun _ => pure _
        · exact pure _
      · exact fun fallback => bind (releaseRecoveredGroups env groups) fun _ => pure _

/-- The releases a recovery falls back on. -/
theorem releaseFallback (env : Env) (jobs : List Job) :
    Steers edges start (releaseFallback env jobs) := by
  apply bind
  · unfold DjQueue.releaseRecoveredConcurrencySlots
    split
    · exact throw _
    · exact releaseRecoveredGroups handsOn env _
  · exact releaseAll handsOn env

end HandOffs

end Steers

end DjQueue
