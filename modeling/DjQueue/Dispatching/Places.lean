import DjQueue.Dispatching.Calm
import DjQueue.Slots.WellFormed

/-!
# Where a dispatch puts its jobs

A dispatch looks at the clock once: a job whose `scheduled_at` is later gets a scheduled row with
that time, every other one is ready, blocked, finished or failed.  `Places T jobs` says so of the
tables before and after the dispatch of `jobs` at the time `T`, for one job, for a batch of new ones
and for a batch that is dispatched again.
-/

namespace DjQueue

open Relational

/-- The job has no time to wait for, or it has come. -/
def Job.Due (T : Time) (j : Job) : Prop := ∀ t, j.scheduledAt = some t → t ≤ T

theorem Job.Due.mono {T T' : Time} {j : Job} (due : j.Due T) (later : T ≤ T') : j.Due T' :=
  fun t at' => Int.le_trans (due t at') later

/-- A job is due whatever happens to its other columns. -/
theorem Job.SameTimes.due {j j' : Job} {T : Time} (same : j.SameTimes j') (due : j.Due T) :
    j'.Due T := by
  intro t at'
  rw [same.scheduledAt] at at'
  exact due t at'

/-- Each of `jobs` is due or gets a scheduled row with its own time; nothing else is scheduled, and
the other jobs and the failed rows stay as they are. -/
structure Places (T : Time) (jobs : List Job) (db db' : Db) : Prop where
  times : ∀ j' ∈ db'.jobs, ∃ j ∈ db.jobs, j'.id = j.id ∧ j'.scheduledAt = j.scheduledAt ∧
    (j.id ∈ jobs.map Job.id ∨ j.SameTimes j')
  scheduled : ∃ new, db'.scheduled.rows = db.scheduled.rows ++ new ∧
    (∀ r ∈ new, ∃ j ∈ jobs, r.jobId = j.id ∧ j.scheduledAt = some r.scheduledAt) ∧
    ∀ j ∈ jobs, j.Due T ∨ ∃ r ∈ new, r.jobId = j.id
  failed : ∀ r ∈ db.failed.rows, r ∈ db'.failed.rows
  failures : ∀ r' ∈ db'.failed.rows, r' ∈ db.failed.rows ∨ db.failed.nextId ≤ r'.id

/-! ## Rows for scheduled jobs -/

/-- The scheduled rows `rows` are inserted, and nothing else is written. -/
structure AddsScheduled (rows : List ScheduledExecution) (db db' : Db) : Prop where
  jobs : db'.jobs = db.jobs
  failed : db'.failed = db.failed
  scheduled : ∃ new, db'.scheduled.rows = db.scheduled.rows ++ new ∧
    (∀ r' ∈ new, ∃ r ∈ rows, r'.jobId = r.jobId ∧ r'.scheduledAt = r.scheduledAt) ∧
    ∀ r ∈ rows, ∃ r' ∈ new, r'.jobId = r.jobId

section Creating

variable {w w' : World} {u : Unit}

/-- The scheduled rows of a batch are added. -/
theorem of_run_bulkCreate_scheduled : ∀ {rows : List ScheduledExecution} {w : World},
    Runs (bulkCreate .scheduled rows) w u w' → AddsScheduled rows w.db w'.db
  | [], w, run => by
      rw [(Runs.of_pure run).2]
      exact ⟨rfl, rfl, [], (List.append_nil _).symm, fun _ mem => absurd mem List.not_mem_nil,
        fun _ mem => absurd mem List.not_mem_nil⟩
  | row :: rows, w, run => by
      rcases Runs.of_bind run with ⟨v, w₁, head, tail⟩
      rcases Runs.of_bind head with ⟨now, w₂, read, inserted⟩
      have same := of_run_timezoneNow read
      have db₁ := Accounts.of_run_insertRow inserted
      rw [same] at db₁
      rcases of_run_bulkCreate_scheduled tail with ⟨jobs, failed, new, rows', given, made⟩
      rw [db₁] at jobs failed rows'
      refine ⟨jobs, failed, stampRow (m := .scheduled) row w.db.scheduled.nextId now :: new, ?_,
        fun r' mem => ?_, fun r mem => ?_⟩
      · rw [rows']
        exact List.append_assoc _ [_] new
      · rcases List.mem_cons.mp mem with rfl | later
        · exact ⟨row, List.mem_cons_self, rfl, rfl⟩
        · rcases given r' later with ⟨r, there, of⟩
          exact ⟨r, List.mem_cons_of_mem _ there, of⟩
      · rcases List.mem_cons.mp mem with rfl | later
        · exact ⟨_, List.mem_cons_self, rfl⟩
        · rcases made r later with ⟨r', there, of⟩
          exact ⟨r', List.mem_cons_of_mem _ there, of⟩

/-- A scheduled row repeats the key and the time of its job. -/
theorem of_scheduledExecutionRow {job : Job} {backendAlias : String} {row : ScheduledExecution}
    (made : scheduledExecutionRow job backendAlias job.scheduledAt = .ok row) :
    row.jobId = job.id ∧ job.scheduledAt = some row.scheduledAt := by
  rcases of_bind_ok made with ⟨backend, -, rest⟩
  cases at' : job.scheduledAt with
  | none =>
      rw [at'] at rest
      cases rest
  | some t =>
      rw [at'] at rest
      cases rest
      exact ⟨rfl, rfl⟩

theorem of_run_createScheduledExecution {job : Job} {backendAlias : String} {checked : Bool}
    (run : Runs (createScheduledExecution job backendAlias job.scheduledAt checked) w u w') :
    w'.db.jobs = w.db.jobs ∧ w'.db.failed = w.db.failed ∧ ∃ r, r.jobId = job.id ∧
      job.scheduledAt = some r.scheduledAt ∧
      w'.db.scheduled.rows = w.db.scheduled.rows ++ [r] := by
  rcases Runs.of_bind run with ⟨v, w₁, check, rest⟩
  have same := of_run_runIf_check Accounts.of_run_ensureNoOtherExecutionState check
  rcases Runs.of_bind rest with ⟨row, w₂, built, created⟩
  rcases Runs.of_ofExcept built with ⟨computed, same₂⟩
  rw [same₂, same] at created
  rcases of_scheduledExecutionRow computed with ⟨id, at'⟩
  rcases Runs.of_bind created with ⟨now, w₃, read, inserted⟩
  rw [Accounts.of_run_insertRow inserted, of_run_timezoneNow read]
  exact ⟨rfl, rfl, stampRow (m := .scheduled) row w.db.scheduled.nextId now, id, at', rfl⟩

end Creating

/-! ## One job -/

/-- A job is scheduled exactly when its time is ahead. -/
theorem of_dispatchDecision {env : Env} {job : Job} {now : Time} {task : Option Imported}
    {decision : DispatchDecision} (decided : dispatchDecision env job now task = .ok decision) :
    decision = .outcome .scheduled ∨ job.Due now ∧ decision ≠ .outcome .scheduled := by
  unfold dispatchDecision at decided
  split at decided
  · cases decided
    exact .inl rfl
  · rename_i late
    refine .inr ⟨fun t at' => ?_, ?_⟩
    · rw [at'] at late
      simpa using late
    · split at decided
      · cases decided
        decide
      · cases settled : concurrencySettingsForJob env job task with
        | error e =>
            rw [settled] at decided
            cases decided
        | ok settings =>
            rw [settled] at decided
            cases decided
            exact nofun

/-- A job that asked for a slot is not scheduled. -/
theorem concurrencyDispatchOutcome_ne (onConflict : OnConflict) (acquired : Bool) :
    concurrencyDispatchOutcome onConflict acquired ≠ .scheduled := by
  cases acquired with
  | true => nofun
  | false => cases onConflict <;> nofun

/-- Resolving a decision writes to no part that is looked at. -/
theorem of_run_resolveOutcome {env : Env} {decision : DispatchDecision} {outcome : DispatchOutcome}
    {w w' : World} (run : Runs (resolveOutcome env decision) w outcome w') :
    calmParts w'.db = calmParts w.db ∧
      (outcome = .scheduled → decision = .outcome .scheduled) := by
  cases decision with
  | outcome o =>
      rcases Runs.of_pure run with ⟨rfl, rfl⟩
      exact ⟨rfl, fun same => by rw [same]⟩
  | concurrency key settings =>
      rcases Runs.of_bind run with ⟨acquired, w₁, asked, rest⟩
      rcases Runs.of_pure rest with ⟨rfl, rfl⟩
      refine ⟨Spares.semaphoreAcquire slots_calmParts env key _ _ _ _ _ asked, fun same => ?_⟩
      exact absurd same (concurrencyDispatchOutcome_ne _ _)

/-- Jobs that are due are placed by a calm operation. -/
theorem Places.of_calm {T : Time} {jobs : List Job} {db db' : Db} (calm : Calm db db')
    (failed : db'.failed = db.failed) (due : ∀ j ∈ jobs, j.Due T) : Places T jobs db db' := by
  refine ⟨fun j' mem => ?_, ⟨[], ?_, nofun, fun j mem => .inl (due j mem)⟩, ?_, ?_⟩
  · rcases calm.jobs j' mem with ⟨j, there, same⟩
    exact ⟨j, there, same.id, same.scheduledAt, .inr same⟩
  · rw [calm.scheduled, List.append_nil]
  · intro r mem
    rw [failed]
    exact mem
  · intro r mem
    rw [failed] at mem
    exact .inl mem

/-- `apply_outcome` of anything but `scheduled`. -/
theorem calm_of_applyOutcome {env : Env} {job : Job} {decision : DispatchDecision} {now : Time}
    {checked : Bool} {outcome : DispatchOutcome} {w w' : World} {u : Unit}
    (other : outcome ≠ .scheduled)
    (run : Runs (applyOutcome env job decision now checked outcome) w u w') :
    Calm w.db w'.db ∧ w'.db.failed = w.db.failed := by
  have ready : Apart calmParts .ready := apart_calmParts (by decide) (by decide)
  have blocked : Apart calmParts .blocked := apart_calmParts (by decide) (by decide)
  have spared : calmParts w'.db = calmParts w.db → Calm w.db w'.db ∧ w'.db.failed = w.db.failed :=
    fun same => ⟨.of_parts same, congrArg (fun parts => parts.2.2) same⟩
  cases outcome with
  | scheduled => exact absurd rfl other
  | ready => exact spared (Spares.createReadyExecution ready _ _ _ _ _ _ _ _ _ run)
  | blocked =>
      cases decision with
      | outcome o => exact (Runs.of_throw run).elim
      | concurrency key settings =>
          rcases Runs.of_bind run with ⟨expiresAt, w₁, added, created⟩
          rcases of_run_addSeconds added with ⟨-, -, rfl⟩
          exact spared (Spares.createBlockedExecution blocked _ _ _ _ _ _ _ _ _ _ created)
  | discarded =>
      simp only [applyOutcome] at run
      split at run
      · have spares : Spares Db.failed (finishJobIfNoExecutionState job none now true) :=
          .finishJobIfNoExecutionState (fun _ _ => rfl) _ _ _ _
        exact ⟨Calms.finishJobIfNoExecutionState _ _ _ _ _ _ _ run, spares _ _ _ run⟩
      · have calms : Calms (saveDiscarded job now) :=
          .updateJobsWhere _ fun _ => ⟨rfl, rfl, fun _ => rfl⟩
        have spares : Spares Db.failed (saveDiscarded job now) :=
          .updateJobsWhere (fun _ _ => rfl) _ _
        exact ⟨calms _ _ _ run, spares _ _ _ run⟩

/-- A dispatch schedules its job only while it is not due. -/
theorem places_of_dispatchJob {env : Env} {job : Job} {checked : Bool} {task : Option Imported}
    {outcome : DispatchOutcome} {w w' : World}
    (run : Runs (dispatchJob env job checked task) w outcome w') :
    Places (w.clock 0) [job] w.db w'.db := by
  rcases Runs.of_bind run with ⟨now, w₁, read, rest⟩
  cases read
  rcases Runs.of_bind rest with ⟨decision, w₂, computed, rest⟩
  rcases Runs.of_ofExcept computed with ⟨decided, rfl⟩
  rcases Runs.of_bind rest with ⟨settled, w₃, resolved, rest⟩
  rcases Runs.of_bind rest with ⟨u, w₄, applied, rest⟩
  rcases Runs.of_pure rest with ⟨rfl, rfl⟩
  rcases of_run_resolveOutcome resolved with ⟨same, only⟩
  have before : Calm w.db w₃.db := .of_parts same
  have failed : w₃.db.failed = w.db.failed := congrArg (fun parts => parts.2.2) same
  rcases of_dispatchDecision decided with rfl | ⟨due, other⟩
  · rcases Runs.of_pure resolved with ⟨rfl, rfl⟩
    rcases of_run_createScheduledExecution applied with ⟨jobs, failed', r, id, at', rows⟩
    refine ⟨fun j mem => ?_, ⟨[r], rows, fun r' mem => ?_, fun j mem => .inr ⟨r, ?_, ?_⟩⟩,
      fun r mem => ?_, fun r mem => ?_⟩
    · rw [jobs] at mem
      exact ⟨j, mem, rfl, rfl, .inr (.refl j)⟩
    · rw [List.mem_singleton.mp mem]
      exact ⟨job, List.mem_singleton.mpr rfl, id, at'⟩
    · exact List.mem_singleton.mpr rfl
    · rw [id, List.mem_singleton.mp mem]
    · rw [failed']
      exact mem
    · rw [failed'] at mem
      exact .inl mem
  · rcases calm_of_applyOutcome (fun same => other (only same)) applied with ⟨calm, failed'⟩
    apply Places.of_calm (before.trans calm) (failed'.trans failed)
    intro j mem
    rw [List.mem_singleton.mp mem]
    exact due

/-! ## Batches -/

/-- The scheduled rows that are built for settled entries. -/
structure BuildsScheduled (settled : List (DispatchEntry × DispatchOutcome))
    (new : List ScheduledExecution) : Prop where
  entries : ∀ r ∈ new, ∃ s ∈ settled, r.jobId = s.1.job.id ∧
    s.1.job.scheduledAt = some r.scheduledAt
  rows : ∀ s ∈ settled, s.2 = .scheduled → ∃ r ∈ new, r.jobId = s.1.job.id

/-- A batch gets a scheduled row for every scheduled entry. -/
theorem scheduled_of_appendDispatchRow {env : Env} {now : Time} {rows rows' : DispatchRows}
    {e : DispatchEntry} {o : DispatchOutcome}
    (ok : appendDispatchRow env now rows e o = .ok rows') :
    ∃ new, rows'.scheduled = rows.scheduled ++ new ∧ BuildsScheduled [(e, o)] new := by
  have none : ∀ {o' : DispatchOutcome}, o' ≠ .scheduled → BuildsScheduled [(e, o')] [] := by
    intro o' other
    refine ⟨nofun, fun s mem same => ?_⟩
    rw [List.mem_singleton.mp mem] at same
    exact absurd same other
  cases o with
  | scheduled =>
      rcases of_bind_ok ok with ⟨row, made, rest⟩
      cases rest
      rcases of_scheduledExecutionRow made with ⟨id, at'⟩
      refine ⟨[row], rfl, fun r mem => ?_, fun s mem _ => ?_⟩
      · rw [List.mem_singleton.mp mem]
        exact ⟨_, List.mem_singleton.mpr rfl, id, at'⟩
      · rw [List.mem_singleton.mp mem]
        exact ⟨row, List.mem_singleton.mpr rfl, id⟩
  | ready =>
      rcases of_bind_ok ok with ⟨row, -, rest⟩
      cases rest
      exact ⟨[], (List.append_nil _).symm, none nofun⟩
  | blocked =>
      rcases of_bind_ok ok with ⟨row, -, rest⟩
      cases rest
      exact ⟨[], (List.append_nil _).symm, none nofun⟩
  | discarded =>
      cases ok
      exact ⟨[], (List.append_nil _).symm, none nofun⟩

theorem BuildsScheduled.append {settled settled' : List (DispatchEntry × DispatchOutcome)}
    {new new' : List ScheduledExecution} (first : BuildsScheduled settled new)
    (second : BuildsScheduled settled' new') :
    BuildsScheduled (settled ++ settled') (new ++ new') := by
  refine ⟨fun r mem => ?_, fun s mem same => ?_⟩
  · rcases List.mem_append.mp mem with mem | mem
    · rcases first.entries r mem with ⟨s, there, of⟩
      exact ⟨s, List.mem_append_left _ there, of⟩
    · rcases second.entries r mem with ⟨s, there, of⟩
      exact ⟨s, List.mem_append_right _ there, of⟩
  · rcases List.mem_append.mp mem with mem | mem
    · rcases first.rows s mem same with ⟨r, there, of⟩
      exact ⟨r, List.mem_append_left _ there, of⟩
    · rcases second.rows s mem same with ⟨r, there, of⟩
      exact ⟨r, List.mem_append_right _ there, of⟩

/-- The scheduled rows of all entries. -/
theorem scheduled_of_appendDispatchRows {env : Env} {now : Time} :
    ∀ {settled : List (DispatchEntry × DispatchOutcome)} {rows rows' : DispatchRows},
      appendDispatchRows env now rows settled = .ok rows' →
      ∃ new, rows'.scheduled = rows.scheduled ++ new ∧ BuildsScheduled settled new
  | [], rows, rows', ok => by
      cases ok
      exact ⟨[], (List.append_nil _).symm, fun _ mem => absurd mem List.not_mem_nil,
        fun _ mem => absurd mem List.not_mem_nil⟩
  | (e, o) :: settled, rows, rows', ok => by
      unfold appendDispatchRows at ok
      rcases of_bind_ok ok with ⟨mid, made, rest⟩
      rcases scheduled_of_appendDispatchRow made with ⟨new, grown, builds⟩
      rcases scheduled_of_appendDispatchRows rest with ⟨new', grown', builds'⟩
      refine ⟨new ++ new', ?_, builds.append builds'⟩
      rw [grown', grown, List.append_assoc]

/-- A discarded job carries the time it was discarded at. -/
theorem finished_of_appendDispatchRows {env : Env} {now : Time} :
    ∀ {settled : List (DispatchEntry × DispatchOutcome)} {rows rows' : DispatchRows},
      appendDispatchRows env now rows settled = .ok rows' →
      (∀ d ∈ rows.discarded, d.finishedAt.isSome = true) →
      ∀ d ∈ rows'.discarded, d.finishedAt.isSome = true
  | [], rows, rows', ok, all => by
      cases ok
      exact all
  | (e, o) :: settled, rows, rows', ok, all => by
      unfold appendDispatchRows at ok
      rcases of_bind_ok ok with ⟨mid, made, rest⟩
      apply finished_of_appendDispatchRows rest
      cases o with
      | discarded =>
          cases made
          exact forall_mem_append_singleton all rfl
      | ready | scheduled | blocked =>
          rcases of_bind_ok made with ⟨row, -, made⟩
          cases made
          exact all

/-- Groups are acquired for on semaphores only. -/
theorem spares_dispatchGroups (env : Env) :
    ∀ groups : List ((String × ConcurrencySettings) × List DispatchEntry),
      Spares calmParts (dispatchGroups env groups)
  | [] => .pure _
  | ((key, settings), group) :: groups => by
      apply Spares.bind (.semaphoreAcquireMany slots_calmParts env key _ _ _)
      intro acquired
      exact .bind (spares_dispatchGroups env groups) fun _ => .pure _

/-- Only entries of the groups are settled. -/
theorem entries_of_dispatchGroups {env : Env} :
    ∀ {groups : List ((String × ConcurrencySettings) × List DispatchEntry)}
      {settled : List (DispatchEntry × DispatchOutcome)} {w w' : World},
      Runs (dispatchGroups env groups) w settled w' → ∀ s ∈ settled, ∃ g ∈ groups, s.1 ∈ g.2
  | [], settled, w, w', run, s, mem => by
      rw [(Runs.of_pure run).1] at mem
      exact absurd mem List.not_mem_nil
  | ((key, settings), group) :: groups, settled, w, w', run, s, mem => by
      rcases Runs.of_bind run with ⟨acquired, w₁, asked, rest⟩
      rcases Runs.of_bind rest with ⟨others, w₂, tail, rest⟩
      rw [(Runs.of_pure rest).1] at mem
      rcases List.mem_append.mp mem with mem | mem
      · refine ⟨_, List.mem_cons_self, ?_⟩
        rw [← groupOutcomes_fst settings acquired group]
        exact List.mem_map_of_mem mem
      · rcases entries_of_dispatchGroups tail s mem with ⟨g, there, inside⟩
        exact ⟨g, List.mem_cons_of_mem _ there, inside⟩

/-- The entries of a group are among the entries. -/
theorem mem_entries_of_slotGroups {entries : List DispatchEntry}
    {g : (String × ConcurrencySettings) × List DispatchEntry} (mem : g ∈ slotGroups entries)
    {e : DispatchEntry} (inside : e ∈ g.2) : e ∈ entries := by
  rcases List.mem_map.mp mem with ⟨g, grouped, rfl⟩
  rcases List.mem_map.mp inside with ⟨pair, inPairs, rfl⟩
  rcases List.mem_filterMap.mp (mem_of_mem_groupBy grouped inPairs).1 with ⟨e, there, made⟩
  cases decision : e.decision with
  | outcome o =>
      rw [decision] at made
      cases made
  | concurrency key settings =>
      rw [decision] at made
      cases made
      exact there

/-- What the rows of a batch say of its scheduled jobs. -/
structure BatchRows (batch : List DispatchEntry) (new : List ScheduledExecution) : Prop where
  entries : ∀ r ∈ new, ∃ e ∈ batch, r.jobId = e.job.id ∧ e.job.scheduledAt = some r.scheduledAt
  rows : ∀ e ∈ batch, e.decision = .outcome .scheduled → ∃ r ∈ new, r.jobId = e.job.id

/-- The batch is built on semaphores only, with a scheduled row for every scheduled entry. -/
theorem of_run_buildDispatchRows {env : Env} {entries : List DispatchEntry} {now : Time}
    {result : DispatchRows × List (DispatchEntry × DispatchOutcome)} {w w' : World}
    (run : Runs (buildDispatchRows env entries now) w result w') :
    calmParts w'.db = calmParts w.db ∧ BatchRows entries result.1.scheduled ∧
      ∀ d ∈ result.1.discarded, d.finishedAt.isSome = true := by
  rcases Runs.of_bind run with ⟨grouped, w₁, slots, rest₁⟩
  rcases Runs.of_bind rest₁ with ⟨rows, w₂, computed, rest₂⟩
  rcases Runs.of_ofExcept computed with ⟨ok, rfl⟩
  rcases Runs.of_pure rest₂ with ⟨rfl, rfl⟩
  refine ⟨spares_dispatchGroups env _ _ _ _ slots, ?_⟩
  rcases scheduled_of_appendDispatchRows ok with ⟨new, grown, builds⟩
  have grown : rows.scheduled = new := grown
  rw [← grown] at builds
  refine ⟨⟨fun r mem => ?_, fun e mem decided => ?_⟩,
    finished_of_appendDispatchRows ok fun _ mem => absurd mem List.not_mem_nil⟩
  · rcases builds.entries r mem with ⟨s, settled, of⟩
    refine ⟨s.1, ?_, of⟩
    rcases List.mem_append.mp settled with direct | acquired
    · exact (Accounts.direct_of_mem direct).1
    · rcases entries_of_dispatchGroups slots s acquired with ⟨g, there, inside⟩
      exact mem_entries_of_slotGroups there inside
  · have direct : (e, DispatchOutcome.scheduled) ∈ directOutcomes entries :=
      List.mem_filterMap.mpr ⟨e, mem, by rw [decided]⟩
    exact builds.rows _ (List.mem_append_left _ direct) rfl

/-! ### Creating the rows -/

section Batch

variable {env : Env} {w w' : World} {u : Unit}

/-- The rows of a batch that has no failures. -/
theorem of_run_createRows {rows : DispatchRows} {w₁ w₂ : World} {v v' : Unit}
    (ready : Runs (bulkCreateReadyExecutions rows.ready false) w v w₁)
    (scheduled : Runs (bulkCreate .scheduled rows.scheduled) w₁ v' w₂)
    (blocked : Runs (bulkCreate .blocked rows.blocked) w₂ u w') :
    AddsScheduled rows.scheduled w.db w'.db := by
  have readyTable : Apart calmParts .ready := apart_calmParts (by decide) (by decide)
  have blockedTable : Apart calmParts .blocked := apart_calmParts (by decide) (by decide)
  have blocks : Spares calmParts (bulkCreate .blocked rows.blocked) :=
    Relates.forM (R := SamePart calmParts) (fun _ => rfl)
      (fun _ _ _ before after => after.trans before)
      (fun row => Spares.createRow blockedTable row) rows.blocked
  have same₁ : calmParts w₁.db = calmParts w.db :=
    Spares.bulkCreateReadyExecutions readyTable _ _ _ _ _ ready
  have same₂ : calmParts w'.db = calmParts w₂.db := blocks _ _ _ blocked
  rcases Prod.mk.inj same₁ with ⟨jobs₁, tables₁⟩
  rcases Prod.mk.inj same₂ with ⟨jobs₂, tables₂⟩
  rcases Prod.mk.inj tables₁ with ⟨scheduled₁, failed₁⟩
  rcases Prod.mk.inj tables₂ with ⟨scheduled₂, failed₂⟩
  rcases of_run_bulkCreate_scheduled scheduled with ⟨jobs, failed, new, rows', both⟩
  refine ⟨?_, ?_, new, ?_, both⟩
  · rw [jobs₂, jobs, jobs₁]
  · rw [failed₂, failed, failed₁]
  · rw [scheduled₂, rows', scheduled₁]

/-- `bulk_update` of the jobs `ids` and of finished ones. -/
theorem times_of_bulkUpdateResults {jobs : List Job} {ids : List JobId}
    (written : ∀ i ∈ jobs, i.id ∈ ids ∨ i.finishedAt.isSome = true)
    (run : Runs (bulkUpdateResults jobs) w u w') :
    (∀ j' ∈ w'.db.jobs, ∃ j ∈ w.db.jobs, j'.id = j.id ∧ j'.scheduledAt = j.scheduledAt ∧
      (j.id ∈ ids ∨ j.SameTimes j')) ∧
      w'.db.scheduled = w.db.scheduled ∧ w'.db.failed = w.db.failed := by
  have db' := Accounts.of_run_bulkUpdateResults run
  rw [db']
  refine ⟨fun j' mem => ?_, rfl, rfl⟩
  rcases List.mem_map.mp mem with ⟨j, there, rfl⟩
  refine ⟨j, there, ?_⟩
  unfold Accounts.withResults
  split
  · rename_i i found
    have hit := List.find?_some found
    have same : i.id = j.id := beq_iff_eq.mp hit
    refine ⟨rfl, rfl, ?_⟩
    rcases written i (List.mem_of_find?_eq_some found) with asked | done
    · exact .inl (same ▸ asked)
    · exact .inr ⟨rfl, rfl, fun _ => done⟩
  · exact ⟨rfl, rfl, .inr (.refl j)⟩

/-- The jobs a redispatch updates are reset or discarded. -/
theorem of_mem_updatedJobs {reset : Bool} {jobs discarded : List Job}
    (finished : ∀ d ∈ discarded, d.finishedAt.isSome = true) {i : Job}
    (mem : i ∈ updatedJobs reset jobs discarded) :
    i.id ∈ jobs.map Job.id ∨ i.finishedAt.isSome = true := by
  unfold updatedJobs at mem
  split at mem
  · rcases List.mem_map.mp mem with ⟨j, there, rfl⟩
    cases found : discarded.find? (fun d => d.id == j.id) with
    | none => exact .inl (List.mem_map_of_mem there)
    | some d => exact .inr (finished d (List.mem_of_find?_eq_some found))
  · exact .inr (finished i mem)

theorem of_run_bulkCreate_failed : ∀ {rows : List FailedExecution} {w : World},
    Runs (bulkCreate .failed rows) w u w' →
    w'.db.jobs = w.db.jobs ∧ w'.db.scheduled = w.db.scheduled ∧
      (∀ r ∈ w.db.failed.rows, r ∈ w'.db.failed.rows) ∧ w.db.failed.nextId ≤ w'.db.failed.nextId ∧
      ∀ r' ∈ w'.db.failed.rows, r' ∈ w.db.failed.rows ∨ w.db.failed.nextId ≤ r'.id
  | [], w, run => by
      rw [(Runs.of_pure run).2]
      exact ⟨rfl, rfl, fun _ mem => mem, Nat.le_refl _, fun _ mem => .inl mem⟩
  | row :: rows, w, run => by
      rcases Runs.of_bind run with ⟨v, w₁, head, tail⟩
      rcases Runs.of_bind head with ⟨now, w₂, read, inserted⟩
      have db₁ := Accounts.of_run_insertRow inserted
      rw [of_run_timezoneNow read] at db₁
      have rows₁ : w₁.db.failed.rows =
          w.db.failed.rows ++ [stampRow (m := .failed) row w.db.failed.nextId now] := by
        rw [db₁]
        rfl
      have next₁ : w₁.db.failed.nextId = w.db.failed.nextId + 1 := by
        rw [db₁]
        rfl
      rcases of_run_bulkCreate_failed tail with ⟨jobs, scheduled, kept, next, added⟩
      rw [rows₁] at kept added
      rw [next₁] at next added
      refine ⟨?_, ?_, fun r mem => kept r (List.mem_append_left _ mem),
        (Nat.le_succ _).trans next, fun r' mem => ?_⟩
      · rw [jobs, db₁]
        rfl
      · rw [scheduled, db₁]
        rfl
      · rcases added r' mem with old | later
        · rcases List.mem_append.mp old with old | new
          · exact .inl old
          · rw [List.mem_singleton.mp new]
            exact .inr (Nat.le_refl _)
        · exact .inr ((Nat.le_succ _).trans later)

/-- A reset keeps the key and the time. -/
theorem mem_resetIf {reset : Bool} {jobs : List Job} {i : Job} (mem : i ∈ resetIf reset jobs) :
    ∃ j ∈ jobs, i.id = j.id ∧ i.scheduledAt = j.scheduledAt := by
  unfold resetIf at mem
  split at mem
  · rcases List.mem_map.mp mem with ⟨j, there, rfl⟩
    exact ⟨j, there, rfl, rfl⟩
  · exact ⟨i, mem, rfl, rfl⟩

/-- The entries of a redispatch are of the jobs it was given. -/
theorem mem_of_prepareRedispatch {now : Time} {isolate : Bool} :
    ∀ {jobs : List Job} {position : Nat} {prepared : Prepared},
      prepareRedispatch env now isolate position jobs = .ok prepared →
      ∀ e ∈ prepared.entries, e.job ∈ jobs
  | [], position, prepared, ok, e, mem => by
      cases ok
      exact absurd mem List.not_mem_nil
  | job :: jobs, position, prepared, ok, e, mem => by
      unfold prepareRedispatch at ok
      split at ok
      · rename_i decision decided
        rcases of_bind_ok ok with ⟨later, rest, made⟩
        cases made
        rcases List.mem_cons.mp mem with rfl | mem
        · exact List.mem_cons_self
        · exact List.mem_cons_of_mem _ (mem_of_prepareRedispatch rest e mem)
      · split at ok
        · rcases of_bind_ok ok with ⟨later, rest, made⟩
          cases made
          exact List.mem_cons_of_mem _ (mem_of_prepareRedispatch rest e mem)
        · cases ok
      · cases ok

/-- Jobs that are due are dispatched again. -/
theorem places_of_redispatchJobs {jobs : List Job} {isolate reset : Bool} {T : Time}
    {result : List Job × List (Job × PyError)} (due : ∀ j ∈ jobs, j.Due T)
    (run : Runs (redispatchJobs env jobs isolate reset) w result w') :
    Places T jobs w.db w'.db := by
  rcases Runs.of_bind run with ⟨now, w₁, read, rest₁⟩
  rw [← of_run_timezoneNow read]
  rcases Runs.of_bind rest₁ with ⟨v₂, w₂, check, rest₂⟩
  rw [of_run_ensureJobIdsHaveNoOtherExecutionState check] at rest₂
  rcases Runs.of_bind rest₂ with ⟨prepared, w₃, computed, rest₃⟩
  rcases Runs.of_ofExcept computed with ⟨ok, same₃⟩
  rw [same₃] at rest₃
  rcases Runs.of_bind rest₃ with ⟨⟨rows, settled⟩, w₄, build, rest₄⟩
  rcases of_run_buildDispatchRows build with ⟨same, batch, finished⟩
  rcases Runs.of_bind rest₄ with ⟨v₅, w₅, updated, rest₅⟩
  rcases Runs.of_bind rest₅ with ⟨v₆, w₆, ready, rest₆⟩
  rcases Runs.of_bind rest₆ with ⟨v₇, w₇, scheduled, rest₇⟩
  rcases Runs.of_bind rest₇ with ⟨v₈, w₈, blocked, rest₈⟩
  rcases Runs.of_bind rest₈ with ⟨v₉, w₉, failed, rest₉⟩
  rw [(Runs.of_pure rest₉).2]
  rcases Prod.mk.inj same with ⟨jobs₄, tables₄⟩
  rcases Prod.mk.inj tables₄ with ⟨scheduled₄, failed₄⟩
  rcases times_of_bulkUpdateResults (fun i mem => of_mem_updatedJobs finished mem) updated with
    ⟨times, scheduled₅, failed₅⟩
  have added := of_run_createRows ready scheduled blocked
  rcases of_run_bulkCreate_failed failed with ⟨jobs₉, scheduled₉, kept, -, fresh⟩
  have failed₈ : w₈.db.failed = w₁.db.failed := by
    rw [added.failed, failed₅, failed₄]
  rw [failed₈] at kept fresh
  rcases added.scheduled with ⟨new, rows', given, -⟩
  refine ⟨fun j' mem => ?_, ⟨new, ?_, fun r mem => ?_, fun j mem => .inl (due j mem)⟩, kept, fresh⟩
  · rw [jobs₉, added.jobs] at mem
    rcases times j' mem with ⟨j, there, id, at', asked⟩
    rw [jobs₄] at there
    rw [Accounts.resetIf_ids] at asked
    exact ⟨j, there, id, at', asked⟩
  · rw [scheduled₉, rows', scheduled₅, scheduled₄]
  · rcases given r mem with ⟨row, inRows, id, at'⟩
    rcases batch.entries row inRows with ⟨e, inBatch, id', at''⟩
    rcases mem_resetIf (mem_of_prepareRedispatch ok e inBatch) with ⟨j, there, same, at₀⟩
    refine ⟨j, there, ?_, ?_⟩
    · rw [id, id', same]
    · rw [← at₀, at'', at']

/-- One entry for each job, with the decision for it. -/
theorem of_dispatchEntries {now : Time} :
    ∀ {jobs : List Job} {position : Nat} {entries : List DispatchEntry},
      dispatchEntries env now position jobs = .ok entries →
      (∀ e ∈ entries, e.job ∈ jobs ∧ dispatchDecision env e.job now none = .ok e.decision) ∧
        ∀ j ∈ jobs, ∃ e ∈ entries, e.job = j
  | [], position, entries, ok => by
      cases ok
      exact ⟨fun _ mem => absurd mem List.not_mem_nil, fun _ mem => absurd mem List.not_mem_nil⟩
  | job :: jobs, position, entries, ok => by
      rcases of_bind_ok ok with ⟨decision, decided, rest⟩
      rcases of_bind_ok rest with ⟨others, later, made⟩
      cases made
      rcases of_dispatchEntries later with ⟨each, all⟩
      refine ⟨fun e mem => ?_, fun j mem => ?_⟩
      · rcases List.mem_cons.mp mem with rfl | mem
        · exact ⟨List.mem_cons_self, decided⟩
        · exact ⟨List.mem_cons_of_mem _ (each e mem).1, (each e mem).2⟩
      · rcases List.mem_cons.mp mem with rfl | mem
        · exact ⟨_, List.mem_cons_self, rfl⟩
        · rcases all j mem with ⟨e, there, same⟩
          exact ⟨e, List.mem_cons_of_mem _ there, same⟩

/-- The jobs of a batch are appended in order. -/
theorem db_of_insertJobs {family : BackendFamily} : ∀ {jobs : List Job} {w : World},
    Runs (jobs.forM (insertJob family)) w u w' → w'.db = { w.db with jobs := w.db.jobs ++ jobs }
  | [], w, run => by
      rw [(Runs.of_pure run).2, List.append_nil]
  | job :: jobs, w, run => by
      rcases Runs.of_bind run with ⟨v, w₁, head, tail⟩
      rw [db_of_insertJobs tail, (Accounts.of_run_insertJob head).2]
      simp only [List.append_assoc, List.singleton_append]

/-- A batch of new jobs. -/
theorem places_of_enqueueBulkOnce {jobs : List Job}
    {result : List (DispatchEntry × DispatchOutcome)}
    (run : Runs (enqueueBulkOnce env jobs) w result w') :
    (jobs.map Job.id).Nodup ∧ (∀ j ∈ jobs, j.id ∉ w.db.jobs.map Job.id) ∧
      Places (w.clock 0) jobs { w.db with jobs := w.db.jobs ++ jobs } w'.db := by
  rcases Runs.of_bind run with ⟨now, w₁, read, rest₁⟩
  cases read
  rcases Runs.of_bind rest₁ with ⟨entries, w₂, computed, rest₂⟩
  rcases Runs.of_ofExcept computed with ⟨ok, same₂⟩
  rw [same₂] at rest₂
  rcases Runs.of_bind (Runs.of_atomic rest₂) with ⟨v₃, w₃, inserted, rest₃⟩
  have db₃ := db_of_insertJobs inserted
  rcases Accounts.of_run_insertJobs inserted with ⟨nodup, fresh⟩
  refine ⟨nodup, fresh, ?_⟩
  rw [← db₃]
  rcases Runs.of_bind rest₃ with ⟨⟨rows, settled⟩, w₄, build, rest₄⟩
  rcases of_run_buildDispatchRows build with ⟨same, batch, finished⟩
  rcases Runs.of_bind rest₄ with ⟨v₅, w₅, ready, rest₅⟩
  rcases Runs.of_bind rest₅ with ⟨v₆, w₆, scheduled, rest₆⟩
  rcases Runs.of_bind rest₆ with ⟨v₇, w₇, blocked, rest₇⟩
  rcases Runs.of_bind rest₇ with ⟨v₈, w₈, updated, rest₈⟩
  rw [(Runs.of_pure rest₈).2]
  rcases Prod.mk.inj same with ⟨jobs₄, tables₄⟩
  rcases Prod.mk.inj tables₄ with ⟨scheduled₄, failed₄⟩
  have added := of_run_createRows ready scheduled blocked
  rcases times_of_bulkUpdateResults
    (fun i mem => (.inr (finished i mem) : i.id ∈ jobs.map Job.id ∨ _)) updated with
    ⟨times, scheduled₈, failed₈⟩
  have failed₇ : w₈.db.failed = w₃.db.failed := by
    rw [failed₈, added.failed, failed₄]
  rcases added.scheduled with ⟨new, rows', given, made⟩
  rcases of_dispatchEntries ok with ⟨each, all⟩
  refine ⟨fun j' mem => ?_, ⟨new, ?_, fun r mem => ?_, fun j mem => ?_⟩, fun r mem => ?_,
    fun r mem => ?_⟩
  · rcases times j' mem with ⟨j, there, of⟩
    rw [added.jobs, jobs₄] at there
    exact ⟨j, there, of⟩
  · rw [scheduled₈, rows', scheduled₄]
  · rcases given r mem with ⟨row, inRows, id, at'⟩
    rcases batch.entries row inRows with ⟨e, inBatch, id', at''⟩
    refine ⟨e.job, (each e inBatch).1, ?_, ?_⟩
    · rw [id, id']
    · rw [at'', at']
  · rcases all j mem with ⟨e, inBatch, rfl⟩
    rcases of_dispatchDecision (each e inBatch).2 with decided | ⟨due, -⟩
    · rcases batch.rows e inBatch decided with ⟨row, inRows, id⟩
      rcases made row inRows with ⟨r, there, id'⟩
      exact .inr ⟨r, there, id'.trans id⟩
    · exact .inl due
  · rw [failed₇]
    exact mem
  · rw [failed₇] at mem
    exact .inl mem

end Batch

end DjQueue
