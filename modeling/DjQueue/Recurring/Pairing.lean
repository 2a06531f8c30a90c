import DjQueue.Recurring.Firing
import DjQueue.Relational.Upkeep
import DjQueue.Slots.Parts
import DjQueue.System.Invariants

/-!
# A run is linked to the job it has reserved

A reservation names the job before there is one, and publishing links that job to the row.  The
link is the only write of `job`, and where the job is gone the row goes with it, so in no run of the
system does a row point to another job than the one it names.
-/

namespace DjQueue

open Relational

/-- The job of a run is the one reserved for it. -/
def PairedRuns (db : Db) : Prop :=
  ∀ e ∈ db.recurringExecutions.rows, ∀ id, e.jobId = some id → e.intendedJobId = some id

namespace PairedRuns

variable {env : Env} {db db' : Db} {w : World}

theorem of_subset (paired : PairedRuns db)
    (fewer : ∀ e ∈ db'.recurringExecutions.rows, e ∈ db.recurringExecutions.rows) :
    PairedRuns db' :=
  fun e mem => paired e (fewer e mem)

theorem of_same (paired : PairedRuns db)
    (same : db'.recurringExecutions = db.recurringExecutions) : PairedRuns db' :=
  paired.of_subset fun _ mem => same ▸ mem

theorem reserves {task : RecurringTask} {runAt next : Time} {intended : JobId}
    {x : Option Reservation} (paired : PairedRuns db)
    (reserves : Reserves env db task runAt next intended x db') : PairedRuns db' := by
  cases reserves with
  | passed ahead => exact paired
  | reserved due gets =>
      cases gets with
      | found here => exact paired
      | created absent =>
          intro e mem id linked
          rcases List.mem_append.mp mem with old | new
          · exact paired e old id linked
          · rw [List.mem_singleton.mp new] at linked
            cases linked

/-- Publishing links the intended job. -/
theorem publishes {r : Reservation} (paired : PairedRuns db)
    (publishes : Publishes env db r db') : PairedRuns db' := by
  cases publishes with
  | idle => exact paired
  | attachedOther row unlinked row' same linked enqueues =>
      exact paired.of_same (executions_of_enqueues enqueues)
  | @attached job db₁ e row unlinked enqueues here free =>
      have executions := executions_of_enqueues enqueues
      intro e' mem
      rcases List.mem_map.mp mem with ⟨x, there, rfl⟩
      rw [executions] at there
      split
      · rename_i hit
        simp only [attachable, Bool.and_eq_true, beq_iff_eq] at hit
        exact fun id linked => hit.2.trans linked
      · exact paired x there

end PairedRuns

/-! ## Operations -/

/-- However the session ends, the runs are paired if they were. -/
def EndsPaired {α : Type} (x : Op α) : Prop := EndsUpheld World.db PairedRuns x

namespace EndsPaired

variable {α β : Type} {env : Env}

/-- What is rolled back has changed nothing. -/
theorem of_rollsBack {x : Op α} (rolls : RollsBack x)
    (keeps : ∀ w a w', Runs x w a w' → PairedRuns w.db → PairedRuns w'.db) : EndsPaired x :=
  EndsUpheld.of_undone rolls keeps

theorem of_reads {x : Op α} (reads : Reads x) : EndsPaired x :=
  of_rollsBack reads.raises fun w a w' run paired => by rwa [reads.returns w a w' run]

/-- What leaves the reservations alone. -/
theorem of_same {x : Op α} (rolls : RollsBack x)
    (same : Spares Db.recurringExecutions x) : EndsPaired x :=
  of_rollsBack rolls fun w a w' run paired => paired.of_same (same w a w' run)

theorem bind {x : Op α} {f : α → Op β} (first : EndsPaired x) (second : ∀ a, EndsPaired (f a)) :
    EndsPaired (x >>= f) := EndsUpheld.bind first second

theorem fireRecurringTask (taskId : Nat) (runAt : Time) :
    EndsPaired (fireRecurringTask env taskId runAt) := by
  refine bind (of_rollsBack (RollsBack.atomic _) ?_) fun reservation => ?_
  · intro w x w' run paired
    rcases of_run_reserveRecurringTask run with
      ⟨-, same, -⟩ | ⟨task, next, -, -, -, -, -, reserved⟩
    · rwa [same]
    · exact paired.reserves reserved
  · cases reservation with
    | none => exact of_reads (Reads.pure _)
    | some r =>
        exact of_rollsBack (RollsBack.atomic _) fun w x w' run paired =>
          paired.publishes (of_run_publishReservedRecurringTask run)

theorem fireDueRecurringTasks (now : Time) (includeDynamicTasks : Bool)
    (batchSize : Option Int) :
    EndsPaired (fireDueRecurringTasks env now includeDynamicTasks batchSize) := by
  have leads : FiringsLead env (fun _ => True) PairedRuns (fun _ db' => PairedRuns db') :=
    ⟨fun _ paired => paired, fun _ _ _ _ paired => paired, fun _ _ paired => paired,
      fun taskId runAt _ => fireRecurringTask taskId runAt⟩
  exact leads.fireDueRecurringTasks (fun _ => trivial) now includeDynamicTasks batchSize

theorem pauseQueue (queueName : String) : EndsPaired (pauseQueue env queueName) := by
  apply bind
  · apply of_same (RollsBack.atomic _)
    apply Relates.atomic
    exact Spares.bind (.of_reads Reads.timezoneNow) fun _ =>
      Spares.bind (.of_reads Reads.getDb) fun _ => Spares.runIf _ (.modifyDb fun _ => rfl)
  · intro _
    apply bind
    · apply of_same (RollsBack.atomic _)
      apply Relates.atomic
      exact Spares.bind (.of_reads Reads.getDb) fun _ => .pure _
    · exact fun _ => of_reads (Reads.pure _)

theorem resumeQueue (queueName : String) (resumedAt : Option Time) :
    EndsPaired (resumeQueue env queueName resumedAt) := by
  apply of_same (RollsBack.atomic _)
  apply Relates.atomic
  apply Spares.bind (.of_reads Reads.getDb)
  intro db
  apply Spares.bind (.of_reads Reads.timezoneNow)
  intro now
  split
  · exact .pure _
  · exact Spares.bind (.modifyDb fun _ => rfl) fun _ => .pure _

theorem of_edits {x : Op α} {A : String} (edits : EditsTasks A x) : EndsPaired x := by
  intro w paired
  rcases edits w trivial with ⟨t, same, -⟩
  exact paired.of_same (by rw [same])

end EndsPaired

theorem Operation.paired {tracked : Option (String × Int)} {env : Env} {w : World}
    (op : Operation) (sound : Sound tracked w.db) (promised : op.Promised tracked env w.db)
    (paired : PairedRuns w.db) : PairedRuns (op.final env w).db := by
  cases op with
  | job op =>
      rcases (op.moves sound promised).executions with ⟨p, trimmed⟩
      apply paired.of_subset
      intro e mem
      have mem : e ∈ (op.final env w).db.recurringExecutions.rows := mem
      rw [trimmed] at mem
      exact List.mem_of_mem_filter mem
  | pauseQueue queueName => exact EndsPaired.pauseQueue queueName w paired
  | resumeQueue queueName resumedAt => exact EndsPaired.resumeQueue queueName resumedAt w paired
  | scheduleRecurringTask key taskPath schedule payload queueName priority description =>
      exact EndsPaired.of_edits (EditsTasks.scheduleRecurringTask key taskPath schedule payload
        queueName priority description) w paired
  | unscheduleRecurringTask key =>
      exact EndsPaired.of_edits (EditsTasks.unscheduleRecurringTask key) w paired
  | upsertStaticRecurringTasks configs =>
      exact EndsPaired.of_edits (EditsTasks.upsertStaticRecurringTasks configs) w paired
  | fireRecurringTask taskId runAt => exact EndsPaired.fireRecurringTask taskId runAt w paired
  | fireDueRecurringTasks now includeDynamicTasks batchSize =>
      exact EndsPaired.fireDueRecurringTasks now includeDynamicTasks batchSize w paired

/-- Every reachable state: a linked reservation has its intended job. -/
theorem pairedRuns_of_reachable {tracked : Option (String × Int)}
    (positive : ∀ t, tracked = some t → 0 < t.2) {db : Db} (reached : Reachable tracked db) :
    PairedRuns db := by
  induction reached with
  | refl => exact fun _ mem => absurd mem List.not_mem_nil
  | tail earlier step ih =>
      cases step with
      | operation env op clock uuids promised =>
          exact op.paired (sound_of_reachable positive earlier) promised ih
      | policies policy resolves => exact ih

end DjQueue
