import DjQueue.Lifecycle.Sessions

/-!
# Dispatching along the edges

A dispatch places the jobs it is given and no others, one by one or as a batch.
-/

namespace DjQueue

open Relational

/-! ## The rows of a batch -/

/-- Every row of a batch is for one of these jobs. -/
structure DispatchRows.For (asked : JobId → Prop) (rows : DispatchRows) : Prop where
  ready : ∀ r ∈ rows.ready, asked r.jobId
  scheduled : ∀ r ∈ rows.scheduled, asked r.jobId
  blocked : ∀ r ∈ rows.blocked, asked r.jobId
  discarded : ∀ j ∈ rows.discarded, asked j.id

section Rows

variable {asked : JobId → Prop} {env : Env} {now : Time} {rows rows' : DispatchRows}

theorem DispatchRows.for_empty : DispatchRows.empty.For asked where
  ready _ mem := absurd mem List.not_mem_nil
  scheduled _ mem := absurd mem List.not_mem_nil
  blocked _ mem := absurd mem List.not_mem_nil
  discarded _ mem := absurd mem List.not_mem_nil

theorem DispatchRows.For.append {entry : DispatchEntry} {outcome : DispatchOutcome}
    (all : rows.For asked) (entry_ : asked entry.job.id)
    (ok : appendDispatchRow env now rows entry outcome = .ok rows') : rows'.For asked := by
  cases outcome with
  | ready =>
      rcases of_bind_ok ok with ⟨row, built, made⟩
      cases made
      have own : row.jobId = entry.job.id := jobId_of_readyExecutionRow built
      exact { all with ready := forall_mem_append_singleton all.ready (own ▸ entry_) }
  | scheduled =>
      rcases of_bind_ok ok with ⟨row, built, made⟩
      cases made
      have own : row.jobId = entry.job.id := jobId_of_scheduledExecutionRow built
      exact { all with scheduled := forall_mem_append_singleton all.scheduled (own ▸ entry_) }
  | blocked =>
      rcases of_bind_ok ok with ⟨row, built, made⟩
      cases made
      have own : row.jobId = entry.job.id := by
        unfold blockedRowOf at built
        split at built
        · cases built
        · obtain ⟨expiresAt, -, built⟩ := of_bind_ok built
          cases built
          rfl
      exact { all with blocked := forall_mem_append_singleton all.blocked (own ▸ entry_) }
  | discarded =>
      cases ok
      exact { all with discarded := forall_mem_append_singleton all.discarded entry_ }

theorem DispatchRows.For.appendAll :
    ∀ {settled : List (DispatchEntry × DispatchOutcome)} {rows : DispatchRows}, rows.For asked →
      (∀ s ∈ settled, asked s.1.job.id) → appendDispatchRows env now rows settled = .ok rows' →
      rows'.For asked
  | [], _, all, _, ok => by
      cases ok
      exact all
  | (entry, outcome) :: settled, rows, all, entries, ok => by
      rcases of_bind_ok ok with ⟨mid, made, rest⟩
      apply (all.append (entries _ List.mem_cons_self) made).appendAll _ rest
      exact fun s mem => entries s (List.mem_cons_of_mem _ mem)

/-- The rows of a batch are for the jobs that were asked for. -/
theorem for_of_buildDispatchRows {entries : List DispatchEntry}
    {result : DispatchRows × List (DispatchEntry × DispatchOutcome)} {w w' : World}
    (all : ∀ e ∈ entries, asked e.job.id)
    (run : Runs (buildDispatchRows env entries now) w result w') : result.1.For asked := by
  rcases Runs.of_bind run with ⟨grouped, w₁, slots, rest₁⟩
  rcases Runs.of_bind rest₁ with ⟨rows, w₂, computed, rest₂⟩
  rcases Runs.of_ofExcept computed with ⟨ok, rfl⟩
  rcases Runs.of_pure rest₂ with ⟨rfl, rfl⟩
  apply DispatchRows.for_empty.appendAll _ ok
  intro s mem
  rcases List.mem_append.mp mem with direct | acquired
  · exact all s.1 (Accounts.direct_of_mem direct).1
  · rcases entries_of_dispatchGroups slots s acquired with ⟨g, there, inside⟩
    exact all s.1 (mem_entries_of_slotGroups there inside)

end Rows

/-- The jobs that fail are of those that were given, and only where failures are kept apart. -/
theorem failure_of_prepareRedispatch {env : Env} {now : Time} {isolate : Bool} :
    ∀ {jobs : List Job} {position : Nat} {prepared : Prepared},
      prepareRedispatch env now isolate position jobs = .ok prepared →
      ∀ f ∈ prepared.policyFailures, isolate = true ∧ f.1 ∈ jobs
  | [], position, prepared, ok, f, mem => by
      cases ok
      exact absurd mem List.not_mem_nil
  | job :: jobs, position, prepared, ok, f, mem => by
      unfold prepareRedispatch at ok
      split at ok
      · rcases of_bind_ok ok with ⟨later, rest, made⟩
        cases made
        rcases failure_of_prepareRedispatch rest f mem with ⟨isolated, there⟩
        exact ⟨isolated, List.mem_cons_of_mem _ there⟩
      · split at ok
        · rename_i isolated
          rcases of_bind_ok ok with ⟨later, rest, made⟩
          cases made
          rcases List.mem_cons.mp mem with rfl | mem
          · exact ⟨isolated, List.mem_cons_self⟩
          · exact ⟨isolated, List.mem_cons_of_mem _ (failure_of_prepareRedispatch rest f mem).2⟩
        · cases ok
      · cases ok

theorem slots_courseParts (db : Db) (t : Table Semaphore) :
    courseParts { db with semaphores := t } = courseParts db := rfl

/-- The acquisitions of groups write to semaphores only. -/
theorem Spares.dispatchGroups {γ : Type} {part : Db → γ}
    (slots : ∀ db t, part { db with semaphores := t } = part db) (env : Env) :
    ∀ groups : List ((String × ConcurrencySettings) × List DispatchEntry),
      Spares part (dispatchGroups env groups)
  | [] => .pure _
  | ((key, settings), group) :: groups => by
      apply Spares.bind (.semaphoreAcquireMany slots env key _ _ _)
      intro acquired
      exact .bind (Spares.dispatchGroups slots env groups) fun _ => .pure _

namespace Steers

variable {edges : List Edge} {start : Db} {env : Env}

/-! ## One job -/

/-- An outcome puts the job into one of four states. -/
theorem applyOutcome {job : Job} (assignable : Assignable edges start job.id)
    (decision : DispatchDecision) (now : Time) (checked : Bool) (outcome : DispatchOutcome) :
    Steers edges start (applyOutcome env job decision now checked outcome) := by
  cases outcome with
  | ready => exact createReadyExecution assignable.ready
  | scheduled => exact createScheduledExecution assignable.scheduled
  | blocked =>
      cases decision with
      | outcome o => exact throw _
      | concurrency key settings =>
          exact bind (ofExcept _) fun _ => createBlockedExecution assignable.blocked
  | discarded =>
      simp only [DjQueue.applyOutcome]
      split
      · exact finishJobIfNoExecutionState assignable.unfinished assignable.finished
      · apply updateJobsWhere
        · exact fun _ => rfl
        intro j hit
        rw [beq_iff_eq.mp hit]
        exact ⟨assignable.unfinished, fun _ => assignable.finished⟩

/-- A dispatch puts the job into one of four states. -/
theorem dispatchJob {job : Job} (assignable : Assignable edges start job.id) (checked : Bool)
    (task : Option Imported) : Steers edges start (dispatchJob env job checked task) := by
  apply bind (of_reads Reads.timezoneNow)
  intro now
  apply bind (ofExcept _)
  intro decision
  apply bind
  · cases decision with
    | outcome o => exact pure _
    | concurrency key settings =>
        exact bind (of_spares (.semaphoreAcquire slots_courseParts env key _ _)) fun _ => pure _
  · exact fun outcome => bind (applyOutcome assignable decision now checked outcome) fun _ => pure _

/-! ## Batches -/

theorem buildDispatchRows (entries : List DispatchEntry) (now : Time) :
    Steers edges start (buildDispatchRows env entries now) :=
  bind (of_spares (.dispatchGroups slots_courseParts env _)) fun _ => bind (ofExcept _) fun _ => pure _

/-- `bulk_update` writes jobs that had not finished. -/
theorem bulkUpdateResults {jobs : List Job}
    (all : ∀ j ∈ jobs, Assignable edges start j.id) :
    Steers edges start (bulkUpdateResults jobs) := by
  apply updateJobsWhere
  · intro j
    split <;> rfl
  · intro j hit
    rcases List.find?_isSome.mp hit with ⟨i, there, same⟩
    rw [← beq_iff_eq.mp same]
    exact ⟨(all i there).unfinished, fun _ => (all i there).finished⟩

/-- Jobs in hand are dispatched again; those whose policy does not resolve fail. -/
theorem redispatchJobs {jobs : List Job} {isolate reset : Bool}
    (all : ∀ j ∈ jobs, Assignable edges start j.id)
    (fails : isolate = true → ∀ j ∈ jobs, Comes edges start (some (.live .failed)) j.id) :
    Steers edges start (redispatchJobs env jobs isolate reset) := by
  apply bind (of_reads Reads.timezoneNow)
  intro now
  apply bind (ensureJobIdsHaveNoOtherExecutionState _ _)
  intro _ w result w' run follows
  rcases Runs.of_bind run with ⟨prepared, w₁, computed, rest₁⟩
  rcases Runs.of_ofExcept computed with ⟨ok, rfl⟩
  rcases Runs.of_bind rest₁ with ⟨⟨rows, settled⟩, w₂, build, rest₂⟩
  have instances : ∀ j ∈ resetIf reset jobs, Assignable edges start j.id := by
    intro j mem
    rcases mem_resetIf mem with ⟨i, there, id, -⟩
    exact id ▸ all i there
  have built := for_of_buildDispatchRows
    (fun e mem => instances e.job (mem_of_prepareRedispatch ok e mem)) build
  have updated : ∀ j ∈ updatedJobs reset (resetIf reset jobs) rows.discarded,
      Assignable edges start j.id := by
    intro j mem
    unfold updatedJobs at mem
    split at mem
    · rcases List.mem_map.mp mem with ⟨i, there, rfl⟩
      cases found : rows.discarded.find? (fun d => d.id == i.id) with
      | none => exact instances i there
      | some d => exact built.discarded d (List.mem_of_find?_eq_some found)
    · exact built.discarded j mem
  have failures : ∀ r ∈ prepared.policyFailures.map (fun f => policyFailureRow f.1 f.2),
      Comes edges start (some (.live .failed)) r.jobId := by
    intro r mem
    rcases List.mem_map.mp mem with ⟨f, there, rfl⟩
    rcases failure_of_prepareRedispatch ok f there with ⟨isolated, inJobs⟩
    rcases mem_resetIf inJobs with ⟨i, there, id, -⟩
    have same : (policyFailureRow f.1 f.2).jobId = i.id := id
    rw [same]
    exact fails isolated i there
  apply (bind (bulkUpdateResults updated) fun _ =>
    bind (bulkCreateReadyExecutions fun r mem => (built.ready r mem).ready) fun _ =>
    bind (bulkCreate (m := .scheduled) fun r mem => (built.scheduled r mem).scheduled) fun _ =>
    bind (bulkCreate (m := .blocked) fun r mem => (built.blocked r mem).blocked) fun _ =>
    bind (bulkCreate (m := .failed) failures) fun _ => pure _) _ _ _ rest₂
  exact buildDispatchRows _ _ _ _ _ build follows

/-! ## New jobs -/

/-- A bulk enqueue creates its jobs and puts each into a state. -/
theorem enqueueBulkOnce {jobs : List Job} (all : ∀ j ∈ jobs, Assignable edges start j.id)
    (unfinished : ∀ j ∈ jobs, j.finishedAt = none) :
    Steers edges start (enqueueBulkOnce env jobs) := by
  apply bind (of_reads Reads.timezoneNow)
  intro now w result w' run
  rcases Runs.of_bind run with ⟨entries, w₁, computed, rest₁⟩
  rcases Runs.of_ofExcept computed with ⟨ok, rfl⟩
  rcases Runs.of_bind (Runs.of_atomic rest₁) with ⟨u, w₂, inserted, rest₂⟩
  intro follows
  have follows : Follows edges start w₂.db := (forM fun j mem =>
    insertJob (all j mem).unfinished (unfinished j mem)) _ _ _ inserted follows
  rcases Runs.of_bind rest₂ with ⟨⟨rows, settled⟩, w₃, build, rest₃⟩
  have built := for_of_buildDispatchRows
    (fun e mem => all e.job ((of_dispatchEntries ok).1 e mem).1) build
  apply (bind (bulkCreateReadyExecutions fun r mem => (built.ready r mem).ready) fun _ =>
    bind (bulkCreate (m := .scheduled) fun r mem => (built.scheduled r mem).scheduled) fun _ =>
    bind (bulkCreate (m := .blocked) fun r mem => (built.blocked r mem).blocked) fun _ =>
    bind (bulkUpdateResults built.discarded) fun _ => pure _) _ _ _ rest₃
  exact buildDispatchRows _ _ _ _ _ build follows

end Steers

end DjQueue
