import DjQueue.Enqueue.SlotsAsked

/-!
# Bulk enqueue and one call after another

`enqueue_jobs_bulk` decides every call first, takes the slots of each key at once and creates the
rows table by table; enqueueing one at a time decides, takes a slot and creates a row for each call
in turn.  At one fixed time both come to the same outcomes and leave the same tables up to row keys,
unless a number on the way of the single calls is out of range.
-/

namespace DjQueue

open Relational

/-- The calls of the list, one transaction each. -/
def enqueueEach (env : Env) (validate : Bool) :
    List (TaskCall × JobId) → Op (List (Job × DispatchOutcome))
  | [] => pure []
  | (call, jobId) :: rest => do
      let first ← enqueueJobWithDispatch env call validate jobId
      let others ← enqueueEach env validate rest
      pure (first :: others)

/-- A call with the entry the batch form makes of it. -/
structure Submission (env : Env) (now : Time) (validate : Bool) (c : TaskCall × JobId)
    (e : DispatchEntry) : Prop where
  prepared : prepareSubmission env.config c.1 validate c.2 = .ok e.job
  decided : Decided e.job e.decision
  decides : ∀ task, dispatchDecision env e.job now task = .ok e.decision

/-- A job that can be created: its key is new to every table, and its priority passes the check
constraint. -/
structure Creatable (db : Db) (job : Job) : Prop where
  absent : db.findJob job.id = none
  stateless : Stateless db job.id
  priority : -100 ≤ job.priority ∧ job.priority ≤ 100

section Single

variable {env : Env} {now : Time} {uuids : Nat → JobId} {db : Db} {validate : Bool}

/-- A new job with columns that fit is inserted. -/
theorem runs_insertJob {family : BackendFamily} {job : Job} (now : Time) (uuids : Nat → JobId)
    (columns : job.policyColumns.all family.holds = true) (absent : db.findJob job.id = none)
    (priority : -100 ≤ job.priority ∧ job.priority ≤ 100) :
    Runs (insertJob family job) ⟨db, fun _ => now, uuids⟩ ()
      ⟨{ db with jobs := db.jobs ++ [job] }, fun _ => now, uuids⟩ := by
  refine Runs.bind (runs_ensureFits columns _) (Runs.bind (runs_getDb _) ?_)
  rw [if_neg]
  · exact runs_modifyDb _ _
  · simp only [absent, Option.isSome_none, Bool.false_or, Bool.or_eq_true, decide_eq_true_eq,
      not_or]
    omega

/-- A served decision keeps the semaphores numbered. -/
theorem numbered_serveDecision {t : Table Semaphore} (numbered : SemaphoresNumbered t)
    (d : DispatchDecision) : SemaphoresNumbered (serveDecision now d t).2 := by
  cases d with
  | outcome o => exact numbered
  | concurrency key settings => exact numbered_acquireSlot key _ now numbered

/-- A decision is resolved as it is served. -/
theorem runs_resolveOutcome {job : Job} {d : DispatchDecision} (decided : Decided job d)
    (numbered : SemaphoresNumbered db.semaphores)
    (fits : DecisionFits env.config.family now db.semaphores d) :
    Runs (resolveOutcome env d) ⟨db, fun _ => now, uuids⟩ (serveDecision now d db.semaphores).1
      ⟨{ db with semaphores := (serveDecision now d db.semaphores).2 }, fun _ => now, uuids⟩ := by
  cases decided with
  | scheduled => rfl
  | ready => rfl
  | concurrency isKey limit duration onConflict positive =>
      refine Runs.bind (runs_semaphoreAcquire positive numbered now uuids fits.1 fits.2) ?_
      rw [acquire_eq]
      rfl

/-- A decided entry can be placed, whatever its outcome. -/
theorem placeable_of_decided {e : DispatchEntry} (decided : Decided e.job e.decision)
    (own : e.job.backendAlias = env.config.backendAlias)
    (deadline : ∀ k, e.asks = some k → isDatetime (now + seconds k.2.durationSeconds) = true)
    (t : Table Semaphore) : Placeable env now (e, (serveDecision now e.decision t).1) := by
  obtain ⟨position, job, decision⟩ := e
  refine ⟨own, ?_, ?_⟩
  · intro isScheduled
    cases decided with
    | scheduled later =>
        rw [show job.scheduledAt = _ from later]
        exact Option.some_ne_none _
    | ready => cases isScheduled
    | concurrency =>
        simp only [serveDecision, concurrencyDispatchOutcome] at isScheduled
        split at isScheduled
        · cases isScheduled
        · split at isScheduled <;> cases isScheduled
  · intro isBlocked
    cases decided with
    | scheduled => cases isBlocked
    | ready => cases isBlocked
    | concurrency => exact ⟨_, _, rfl, deadline _ rfl⟩

/-- The deadline of a slot that fits is a time. -/
theorem DecisionFits.deadline {e : DispatchEntry} {t : Table Semaphore}
    (fits : DecisionFits env.config.family now t e.decision) :
    ∀ k, e.asks = some k → isDatetime (now + seconds k.2.durationSeconds) = true := by
  intro k asks
  obtain ⟨position, job, decision⟩ := e
  cases decision with
  | outcome o => cases asks
  | concurrency key settings =>
      cases asks
      exact fits.1

theorem findJob_append_self (jobs : List Job) (job : Job) :
    ((jobs ++ [job]).find? (fun j => j.id == job.id)).isSome := by
  rw [List.find?_append]
  simp

/-- One enqueue places its job as the decision was served. -/
theorem runs_enqueueJobWithDispatch {c : TaskCall × JobId} {e : DispatchEntry}
    (uuids : Nat → JobId) (submission : Submission env now validate c e)
    (creatable : Creatable db e.job) (numbered : SemaphoresNumbered db.semaphores)
    (columns : e.job.policyColumns.all env.config.family.holds = true)
    (fits : DecisionFits env.config.family now db.semaphores e.decision) :
    Runs (enqueueJobWithDispatch env c.1 validate c.2) ⟨db, fun _ => now, uuids⟩
      (e.job, (serveDecision now e.decision db.semaphores).1)
      ⟨placed env now { db with
          jobs := db.jobs ++ [e.job]
          semaphores := (serveDecision now e.decision db.semaphores).2 }
        [(e, (serveDecision now e.decision db.semaphores).1)], fun _ => now, uuids⟩ := by
  have own := (submitted_of_prepareSubmission submission.prepared).own
  refine Runs.bind (runs_ofExcept submission.prepared _) (runs_atomic ?_)
  refine Runs.bind (runs_insertJob now uuids columns creatable.absent creatable.priority) ?_
  refine Runs.bind (a := (serveDecision now e.decision db.semaphores).1) ?_ (runs_pure _ _)
  refine Runs.bind (runs_timezoneNow _) (Runs.bind (runs_ofExcept (submission.decides _) _) ?_)
  refine Runs.bind (runs_resolveOutcome submission.decided numbered fits) ?_
  refine Runs.bind (runs_applyOutcome (placeable_of_decided submission.decided own fits.deadline _)
    ?_ ?_) (runs_pure _ _)
  · exact findJob_append_self db.jobs e.job
  · intro m
    cases m <;> exact creatable.stateless _

/-- A call that returns found its columns and its decision in range. -/
theorem fits_of_run_enqueueJobWithDispatch {c : TaskCall × JobId} {e : DispatchEntry}
    {uuids : Nat → JobId} (submission : Submission env now validate c e)
    {result : Job × DispatchOutcome} {w' : World}
    (run : Runs (enqueueJobWithDispatch env c.1 validate c.2) ⟨db, fun _ => now, uuids⟩ result w') :
    e.job.policyColumns.all env.config.family.holds = true ∧
      DecisionFits env.config.family now db.semaphores e.decision := by
  obtain ⟨job, w₁, prepared, rest₁⟩ := Runs.of_bind run
  obtain ⟨isPrepared, rfl⟩ := Runs.of_ofExcept prepared
  rw [submission.prepared] at isPrepared
  cases isPrepared
  obtain ⟨u, w₂, inserted, rest₂⟩ := Runs.of_bind (Runs.of_atomic rest₁)
  obtain ⟨v, w₃, checked, rest₃⟩ := Runs.of_bind inserted
  obtain ⟨columns, rfl⟩ := of_run_ensureFits checked
  refine ⟨columns, ?_⟩
  obtain ⟨found, w₄, read, rest₄⟩ := Runs.of_bind rest₃
  obtain ⟨rfl, rfl⟩ := of_run_getDb read
  split at rest₄
  · exact (Runs.of_throw rest₄).elim
  cases rest₄
  obtain ⟨outcome, w₅, dispatched, rest₅⟩ := Runs.of_bind rest₂
  obtain ⟨time, w₆, ticked, rest₆⟩ := Runs.of_bind dispatched
  cases ticked
  obtain ⟨decision, w₇, decided, rest₇⟩ := Runs.of_bind rest₆
  obtain ⟨isDecided, rfl⟩ := Runs.of_ofExcept decided
  rw [submission.decides] at isDecided
  cases isDecided
  obtain ⟨resolved, w₈, asked, rest₈⟩ := Runs.of_bind rest₇
  cases decision : e.decision with
  | outcome o => trivial
  | concurrency key settings =>
      rw [decision] at asked
      obtain ⟨acquired, w₉, acquire, rest₉⟩ := Runs.of_bind asked
      obtain ⟨read, w₁₀, ticked, deadline, fits, -⟩ := checked_of_run_semaphoreAcquire acquire
      cases ticked
      exact ⟨deadline, fits⟩

end Single

/-! ## One after another -/

section Each

variable {env : Env} {now : Time} {uuids : Nat → JobId} {validate : Bool}

/-- Rows are added in two steps or in one. -/
theorem addRows_addRows {m : StateModel} (t : Table m.Row) (l l' : List m.Row) :
    addRows now (addRows now t l) l' = addRows now t (l ++ l') := by
  unfold addRows
  rw [List.foldl_append]

/-- Discarded jobs are finished in two steps or in one. -/
theorem finishDiscarded_append (l l' : Settled) (job : Job) :
    finishDiscarded now l' (finishDiscarded now l job) = finishDiscarded now (l ++ l') job := by
  unfold finishDiscarded
  rw [discardedJobs_append, List.map_append]
  by_cases first : job.id ∈ (discardedJobs now l).map Job.id
  · by_cases second : job.id ∈ (discardedJobs now l').map Job.id
    · simp [first, second]
    · simp [first, second]
  · by_cases second : job.id ∈ (discardedJobs now l').map Job.id
    · simp [first, second]
    · simp [first, second]

/-- A job that is not among the settled ones is not finished. -/
theorem finishDiscarded_of_not_mem (settled : Settled) {job : Job}
    (out : ∀ s ∈ settled, s.1.job.id ≠ job.id) : finishDiscarded now settled job = job := by
  unfold finishDiscarded
  rw [if_neg]
  intro hit
  obtain ⟨s, mem, same⟩ := List.mem_map.mp
    ((discardedJobs_ids settled).subset (List.contains_iff_mem.mp hit))
  exact out s mem same

/-- Placing the first job and then the others. -/
theorem placed_cons {db : Db} {s : DispatchEntry × DispatchOutcome} {settled : Settled}
    {jobs : List Job} {t t' : Table Semaphore} (apart : ∀ j ∈ jobs, s.1.job.id ≠ j.id) :
    placed env now { placed env now { db with jobs := db.jobs ++ [s.1.job], semaphores := t } [s] with
        jobs := (placed env now
          { db with jobs := db.jobs ++ [s.1.job], semaphores := t } [s]).jobs ++ jobs
        semaphores := t' } settled =
      placed env now { db with jobs := db.jobs ++ s.1.job :: jobs, semaphores := t' }
        (s :: settled) := by
  have later : jobs.map (finishDiscarded now settled) =
      jobs.map (finishDiscarded now ([s] ++ settled)) := by
    refine List.map_congr_left fun j mem => ?_
    rw [← finishDiscarded_append, finishDiscarded_of_not_mem [s]]
    intro s' isS
    rw [List.mem_singleton.mp isS]
    exact apart j mem
  unfold placed
  dsimp only
  rw [show s :: settled = [s] ++ settled from rfl, readyRows_append, scheduledRows_append,
    blockedRows_append, addRows_addRows, addRows_addRows, addRows_addRows, List.map_append, later,
    List.map_map, show db.jobs ++ s.1.job :: jobs = (db.jobs ++ [s.1.job]) ++ jobs by simp,
    @List.map_append _ _ _ (db.jobs ++ [s.1.job]) _]
  congr 3
  funext job
  exact finishDiscarded_append _ _ _

theorem ids_placed (db : Db) (settled : Settled) :
    (placed env now db settled).jobs.map Job.id = db.jobs.map Job.id := by
  unfold placed
  rw [List.map_map]
  refine List.map_congr_left fun j _ => ?_
  rw [Function.comp_apply, finishDiscarded]
  split <;> rfl

theorem findJob_eq_none {db : Db} {id : JobId} :
    db.findJob id = none ↔ id ∉ db.jobs.map Job.id := by
  unfold Db.findJob
  rw [List.find?_eq_none, List.mem_map]
  constructor
  · rintro none ⟨j, mem, same⟩
    exact none j mem (beq_iff_eq.mpr same)
  · intro none j mem same
    exact none ⟨j, mem, beq_iff_eq.mp same⟩

/-- The next job can still be created once others are in place. -/
theorem Creatable.placed {db : Db} {job other : Job} {t : Table Semaphore} {settled : Settled}
    (creatable : Creatable db job) (apart : job.id ≠ other.id)
    (settledOther : ∀ id ∈ settledIds settled, id = other.id) :
    Creatable (DjQueue.placed env now { db with jobs := db.jobs ++ [other], semaphores := t }
      settled) job where
  absent := by
    rw [findJob_eq_none, ids_placed, List.map_append, List.mem_append, not_or]
    refine ⟨findJob_eq_none.mp creatable.absent, fun last => ?_⟩
    exact apart (List.mem_singleton.mp last)
  stateless m := by
    rw [Db.hasState, Bool.eq_false_iff]
    intro hit
    rcases stateJobIds_placed (List.contains_iff_mem.mp hit) with old | new
    · have free := creatable.stateless m
      rw [Db.hasState, Bool.eq_false_iff] at free
      refine free (List.contains_iff_mem.mpr ?_)
      cases m <;> exact old
    · exact apart (settledOther _ new)
  priority := creatable.priority

/-- Once the first entry is placed the others can still be created. -/
theorem creatable_after (env : Env) (now : Time) {e : DispatchEntry} {entries : List DispatchEntry}
    {db : Db} (t : Table Semaphore) (outcome : DispatchOutcome)
    (apart : ∀ e' ∈ entries, e.job.id ≠ e'.job.id) (creatable : ∀ e' ∈ entries, Creatable db e'.job) :
    ∀ e' ∈ entries, Creatable (placed env now
      { db with jobs := db.jobs ++ [e.job], semaphores := t } [(e, outcome)]) e'.job :=
  fun e' mem => (creatable e' mem).placed (Ne.symm (apart e' mem))
    (fun _ mem => List.mem_singleton.mp mem)

/-- Enqueues one after the other place what serving the decisions in order gives. -/
theorem runs_enqueueEach (uuids : Nat → JobId) :
    ∀ {calls : List (TaskCall × JobId)} {entries : List DispatchEntry}
    {db : Db}, List.Forall₂ (Submission env now validate) calls entries →
    (entries.map (fun e => e.job.id)).Nodup → (∀ e ∈ entries, Creatable db e.job) →
    SemaphoresNumbered db.semaphores → OnePolicy (entries.filterMap DispatchEntry.asks) →
    EntriesFit env now entries db.semaphores →
    let settled := serveAll (serveDecision now) DispatchEntry.decision entries db.semaphores
    Runs (enqueueEach env validate calls) ⟨db, fun _ => now, uuids⟩
      (settled.1.map (fun s => (s.1.job, s.2)))
      ⟨placed env now { db with
          jobs := db.jobs ++ entries.map DispatchEntry.job, semaphores := settled.2 } settled.1,
        fun _ => now, uuids⟩
  | [], _, db, .nil, _, _, _, _, _ => by
      dsimp only
      rw [List.map_nil, List.append_nil, serveAll_nil, placed_nil]
      rfl
  | c :: calls, e :: entries, db, .cons submission rest, nodup, creatable, numbered, one, fit => by
      obtain ⟨columns, fits, later⟩ := (entriesFit_cons one).mp fit
      obtain ⟨fresh, nodup⟩ := List.nodup_cons.mp nodup
      have apart : ∀ e' ∈ entries, e.job.id ≠ e'.job.id :=
        fun e' mem same => fresh (List.mem_map.mpr ⟨e', mem, same.symm⟩)
      have first := runs_enqueueJobWithDispatch uuids submission
        (creatable e List.mem_cons_self) numbered columns fits
      have others := runs_enqueueEach uuids rest nodup
        (creatable_after env now _ (serveDecision now e.decision db.semaphores).1 apart
          fun e' mem => creatable e' (List.mem_cons_of_mem _ mem))
        (numbered_serveDecision numbered e.decision) one.later later
      have apartJobs : ∀ j ∈ entries.map DispatchEntry.job, e.job.id ≠ j.id := by
        intro j mem
        obtain ⟨e', inside, rfl⟩ := List.mem_map.mp mem
        exact apart e' inside
      dsimp only
      rw [serveAll_cons, List.map_cons (f := DispatchEntry.job),
        ← placed_cons (s := (e, (serveDecision now e.decision db.semaphores).1))
          (t := (serveDecision now e.decision db.semaphores).2) apartJobs]
      exact Runs.bind first (Runs.bind others (runs_pure _ _))

/-- Calls that all return found everything they asked for in range. -/
theorem fit_of_run_enqueueEach {uuids : Nat → JobId} :
    ∀ {calls : List (TaskCall × JobId)} {entries : List DispatchEntry} {db : Db}
    {each : List (Job × DispatchOutcome)} {w' : World},
    List.Forall₂ (Submission env now validate) calls entries →
    (entries.map (fun e => e.job.id)).Nodup → (∀ e ∈ entries, Creatable db e.job) →
    SemaphoresNumbered db.semaphores → OnePolicy (entries.filterMap DispatchEntry.asks) →
    Runs (enqueueEach env validate calls) ⟨db, fun _ => now, uuids⟩ each w' →
    EntriesFit env now entries db.semaphores
  | [], _, db, _, _, .nil, _, _, _, _, _ =>
      ⟨fun _ mem => absurd mem List.not_mem_nil, fun _ mem => absurd mem List.not_mem_nil⟩
  | c :: calls, e :: entries, db, each, w', .cons submission rest, nodup, creatable, numbered, one,
      run => by
      obtain ⟨fresh, nodup⟩ := List.nodup_cons.mp nodup
      have apart : ∀ e' ∈ entries, e.job.id ≠ e'.job.id :=
        fun e' mem same => fresh (List.mem_map.mpr ⟨e', mem, same.symm⟩)
      obtain ⟨first, w₁, enqueued, left⟩ := Runs.of_bind run
      obtain ⟨others, w₂, later, -⟩ := Runs.of_bind left
      obtain ⟨columns, fits⟩ := fits_of_run_enqueueJobWithDispatch submission enqueued
      have known := runs_enqueueJobWithDispatch uuids submission (creatable e List.mem_cons_self)
        numbered columns fits
      obtain ⟨-, rfl⟩ := Runs.unique known enqueued
      refine (entriesFit_cons one).mpr ⟨columns, fits, ?_⟩
      exact fit_of_run_enqueueEach rest nodup
        (creatable_after env now _ _ apart fun e' mem => creatable e' (List.mem_cons_of_mem _ mem))
        (numbered_serveDecision numbered e.decision) one.later later

end Each

/-! ## All at once -/

/-- An entry with the key and the settings it asks under. -/
abbrev SlotEntry := (String × ConcurrencySettings) × DispatchEntry

/-- An entry that asked for a slot, with what it came to. -/
def slotOutcome (x : SlotEntry × Bool) : DispatchEntry × DispatchOutcome :=
  (x.1.2, concurrencyDispatchOutcome x.1.1.2.onConflict x.2)

/-- Whether the entry goes through a semaphore. -/
def DispatchEntry.needsSlot (e : DispatchEntry) : Bool :=
  match e.decision with
  | .outcome _ => false
  | .concurrency _ _ => true

section Groups

variable {now : Time} {uuids : Nat → JobId}

/-- Only the entries that need a slot touch the semaphores. -/
theorem serveAll_slotEntries (entries : List DispatchEntry) (t : Table Semaphore) :
    let settled := serveAll (serveDecision now) DispatchEntry.decision entries t
    let slots := serveAll (serveSlot now) Prod.fst (slotEntries entries) t
    settled.2 = slots.2 ∧
      settled.1.filter (fun s => s.1.needsSlot) = slots.1.map slotOutcome ∧
      settled.1.filter (fun s => !s.1.needsSlot) = directOutcomes entries := by
  induction entries generalizing t with
  | nil => exact ⟨rfl, rfl, rfl⟩
  | cons e entries ih =>
      obtain ⟨position, job, decision⟩ := e
      cases decision with
      | outcome o =>
          obtain ⟨state, slots, direct⟩ := ih t
          refine ⟨state, ?_, ?_⟩
          · exact slots
          · exact congrArg (List.cons _) direct
      | concurrency key settings =>
          obtain ⟨state, slots, direct⟩ := ih (serveSlot now (key, settings) t).2
          refine ⟨state, ?_, ?_⟩
          · exact congrArg (List.cons _) slots
          · exact direct

/-- The first of a group get the slots. -/
theorem groupOutcomes_eq {k : String × ConcurrencySettings} {group : List SlotEntry}
    (keys : ∀ x ∈ group, x.1 = k) (acquired : Int) :
    groupOutcomes k.2 acquired (group.map Prod.snd) =
      ((group.take acquired.toNat).map (fun a => (a, true)) ++
        (group.drop acquired.toNat).map (fun a => (a, false))).map slotOutcome := by
  have part : ∀ (l : List SlotEntry) (given : Bool), (∀ x ∈ l, x.1 = k) →
      (l.map Prod.snd).map (fun e => (e, concurrencyDispatchOutcome k.2.onConflict given)) =
        (l.map (fun a => (a, given))).map slotOutcome := by
    intro l given keys
    rw [List.map_map, List.map_map]
    refine List.map_congr_left fun x mem => ?_
    rw [Function.comp_apply, Function.comp_apply, slotOutcome, keys x mem]
  unfold groupOutcomes
  rw [List.map_append, ← part _ true fun x mem => keys x (List.mem_of_mem_take mem),
    ← part _ false fun x mem => keys x (List.mem_of_mem_drop mem), ← List.map_take, ← List.map_drop]

/-- What a request for any number of slots needs: a deadline that is a time, and a limit that its
column takes. -/
structure Storable (family : BackendFamily) (now : Time) (k : Asked) : Prop where
  positive : 0 < k.2.limit
  deadline : isDatetime (now + seconds k.2.durationSeconds) = true
  limit : family.holds k.2.limit = true

/-- Group after group, with one request for the slots of each. -/
theorem runs_dispatchGroups (env : Env) (now : Time) (uuids : Nat → JobId) :
    ∀ (groups : List ((String × ConcurrencySettings) × List SlotEntry)) (db : Db),
    (∀ g ∈ groups, Storable env.config.family now g.1 ∧ ∀ x ∈ g.2, x.1 = g.1) →
    let slots := serveAll (serveSlot now) Prod.fst (groups.flatMap Prod.snd) db.semaphores
    Runs (dispatchGroups env (groups.map (fun g => (g.1, g.2.map Prod.snd))))
      ⟨db, fun _ => now, uuids⟩ (slots.1.map slotOutcome)
      ⟨{ db with semaphores := slots.2 }, fun _ => now, uuids⟩
  | [], db, _ => rfl
  | g :: groups, db, all => by
      obtain ⟨storable, keys⟩ := all g List.mem_cons_self
      have served := serveAll_group now storable.positive g.2 db.semaphores keys
      have acquired : Runs (semaphoreAcquireMany env g.1.1 (g.2.map Prod.snd).length g.1.2.limit
          g.1.2.durationSeconds) ⟨db, fun _ => now, uuids⟩
          (serveSlots now g.1 g.2.length db.semaphores).1
          ⟨{ db with semaphores := (serveSlots now g.1 g.2.length db.semaphores).2 },
            fun _ => now, uuids⟩ := by
        rw [List.length_map]
        exact runs_semaphoreAcquireMany storable.positive (fun _ => storable.deadline)
          (fun _ => storable.limit) db g.1.1 uuids
      have rest := runs_dispatchGroups env now uuids groups
        { db with semaphores := (serveSlots now g.1 g.2.length db.semaphores).2 }
        (fun g' mem => all g' (List.mem_cons_of_mem _ mem))
      dsimp only at rest ⊢
      rw [List.flatMap_cons, serveAll_append, served, List.map_append]
      rw [← groupOutcomes_eq keys]
      exact Runs.bind acquired (Runs.bind rest (runs_pure _ _))

/-- What the batch form comes to: the entries that need no slot, and then key by key. -/
def bulkSettled (now : Time) (entries : List DispatchEntry) (t : Table Semaphore) :
    Settled × Table Semaphore :=
  let slots := serveAll (serveSlot now) Prod.fst
    ((groupBy Prod.fst (slotEntries entries)).flatMap Prod.snd) t
  (directOutcomes entries ++ slots.1.map slotOutcome, slots.2)

/-- The entry waits for a slot of the key, if it waits. -/
def waitsFor (key : String) (s : DispatchEntry × DispatchOutcome) : Bool :=
  match s.1.decision with
  | .outcome _ => false
  | .concurrency k _ => k == key

theorem needsSlot_of_waitsFor {key : String} {s : DispatchEntry × DispatchOutcome}
    (waits : waitsFor key s = true) : s.1.needsSlot = true := by
  unfold waitsFor at waits
  unfold DispatchEntry.needsSlot
  split at waits
  · cases waits
  · rfl

/-- Waiters are found among the entries that asked for slots. -/
theorem filter_waitsFor (key : String) (settled : Settled) :
    (settled.filter (fun s => s.1.needsSlot)).filter (waitsFor key) =
      settled.filter (waitsFor key) := by
  rw [List.filter_filter]
  refine List.filter_congr fun s _ => ?_
  cases waits : waitsFor key s with
  | false => rfl
  | true => simp [needsSlot_of_waitsFor waits]

/-- A slot entry is an entry that asks under its key and settings. -/
theorem decision_of_mem_slotEntries {entries : List DispatchEntry} {x : SlotEntry}
    (mem : x ∈ slotEntries entries) :
    x.2 ∈ entries ∧ x.2.decision = .concurrency x.1.1 x.1.2 := by
  obtain ⟨e, inside, built⟩ := List.mem_filterMap.mp mem
  split at built
  · cases built
  · rename_i key settings decision
    cases built
    exact ⟨inside, decision⟩

/-- Entries that ask for slots of one key do so under one policy. -/
def SharesPolicy (entries : List SlotEntry) : Prop :=
  ∀ x ∈ entries, ∀ y ∈ entries, x.1.1 = y.1.1 → x.1 = y.1

/-- Regrouped answers, looked at key by key, are the answers. -/
theorem filter_regrouped {answers : List (SlotEntry × Bool)}
    (shares : ∀ x ∈ answers, ∀ y ∈ answers, x.1.1.1 = y.1.1.1 → x.1.1 = y.1.1) (key : String) :
    ((groupBy (fun x => x.1.1) answers).flatMap Prod.snd).filter (fun x => x.1.1.1 == key) =
      answers.filter (fun x => x.1.1.1 == key) := by
  have perm := groupBy_flatMap_perm (fun x : SlotEntry × Bool => x.1.1) answers
  by_cases some : ∃ x ∈ answers, x.1.1.1 = key
  · obtain ⟨x, mem, rfl⟩ := some
    have same : ∀ y ∈ answers, (y.1.1.1 == x.1.1.1) = decide (y.1.1 = x.1.1) := by
      intro y inside
      by_cases eq : y.1.1.1 = x.1.1.1
      · rw [shares y inside x mem eq]
        simp
      · have ne : y.1.1 ≠ x.1.1 := fun pair => eq (by rw [pair])
        simp [eq, ne]
    rw [List.filter_congr same,
      List.filter_congr (fun y inside => same y (perm.mem_iff.mp inside))]
    exact filter_groupBy_flatMap _ answers x.1.1
  · have none : ∀ y ∈ answers, ¬ (y.1.1.1 == key) = true :=
      fun y inside hit => some ⟨y, inside, beq_iff_eq.mp hit⟩
    rw [List.filter_eq_nil_iff.mpr none,
      List.filter_eq_nil_iff.mpr fun y inside => none y (perm.mem_iff.mp inside)]

/-- An answer is for one of the entries. -/
theorem mem_slotEntries_of_answer {entries : List SlotEntry} {t : Table Semaphore}
    {x : SlotEntry × Bool} (mem : x ∈ (serveAll (serveSlot now) Prod.fst entries t).1) :
    x.1 ∈ entries := by
  have all := map_fst_serveAll (serveSlot now) Prod.fst entries t
  rw [← all]
  exact List.mem_map_of_mem mem

/-- Which key an answered entry waits for. -/
theorem waitsFor_slotOutcome {entries : List DispatchEntry} {x : SlotEntry × Bool}
    (mem : x.1 ∈ slotEntries entries) (key : String) :
    waitsFor key (slotOutcome x) = (x.1.1.1 == key) := by
  unfold waitsFor slotOutcome
  rw [(decision_of_mem_slotEntries mem).2]

/-- The batch gives every entry the outcome that serving in order gives it. -/
theorem bulkSettled_spec {entries : List DispatchEntry} (shares : SharesPolicy (slotEntries entries))
    (t : Table Semaphore) :
    let settled := serveAll (serveDecision now) DispatchEntry.decision entries t
    (bulkSettled now entries t).2 = settled.2 ∧
      (bulkSettled now entries t).1.Perm settled.1 ∧
      ∀ key, (bulkSettled now entries t).1.filter (waitsFor key) =
        settled.1.filter (waitsFor key) := by
  obtain ⟨state, slots, direct⟩ := serveAll_slotEntries entries t
  have regrouped := (commutes_serveSlot now).serveAll_groups
    (slotEntries entries) t
    (fun x mem y mem' ne same => ne (shares y mem' x mem same.symm))
  dsimp only at state slots ⊢
  unfold bulkSettled
  dsimp only
  rw [regrouped]
  dsimp only
  refine ⟨state.symm, ?_, ?_⟩
  · have perm := (groupBy_flatMap_perm (fun x : SlotEntry × Bool => x.1.1)
      (serveAll (serveSlot now) Prod.fst (slotEntries entries) t).1).map slotOutcome
    rw [← slots] at perm
    rw [← direct]
    refine (perm.append_left _).trans ?_
    exact List.perm_append_comm.trans (List.filter_append_perm _ _)
  · intro key
    have none : (directOutcomes entries).filter (waitsFor key) = [] := by
      rw [← direct, List.filter_filter]
      refine List.filter_eq_nil_iff.mpr fun s _ both => ?_
      obtain ⟨waits, direct⟩ := Bool.and_eq_true_iff.mp both
      rw [needsSlot_of_waitsFor waits] at direct
      cases direct
    have answers : ∀ l : List (SlotEntry × Bool), (∀ x ∈ l, x.1 ∈ slotEntries entries) →
        (l.map slotOutcome).filter (waitsFor key) =
          (l.filter (fun x => x.1.1.1 == key)).map slotOutcome := by
      intro l asked
      rw [List.filter_map]
      refine congrArg _ (List.filter_congr fun x mem => ?_)
      exact waitsFor_slotOutcome (asked x mem) key
    rw [List.filter_append, none, List.nil_append, ← filter_waitsFor key
      (serveAll (serveDecision now) DispatchEntry.decision entries t).1, slots, answers, answers,
      filter_regrouped]
    · exact fun x mem y mem' => shares _ (mem_slotEntries_of_answer mem) _
        (mem_slotEntries_of_answer mem')
    · exact fun x mem => mem_slotEntries_of_answer mem
    · exact fun x mem => mem_slotEntries_of_answer ((groupBy_flatMap_perm _ _).mem_iff.mp mem)

end Groups

section Bulk

variable {env : Env} {now : Time} {uuids : Nat → JobId}

/-- New jobs with columns that fit are inserted. -/
theorem runs_insertJobs (family : BackendFamily) (now : Time) (uuids : Nat → JobId) :
    ∀ {jobs : List Job} (db : Db), (jobs.map Job.id).Nodup →
    (∀ j ∈ jobs, j.policyColumns.all family.holds = true) →
    (∀ j ∈ jobs, db.findJob j.id = none ∧ -100 ≤ j.priority ∧ j.priority ≤ 100) →
    Runs (jobs.forM (insertJob family)) ⟨db, fun _ => now, uuids⟩ ()
      ⟨{ db with jobs := db.jobs ++ jobs }, fun _ => now, uuids⟩
  | [], db, _, _, _ => by
      rw [List.append_nil]
      rfl
  | j :: jobs, db, nodup, columns, creatable => by
      obtain ⟨fresh, nodup⟩ := List.nodup_cons.mp nodup
      obtain ⟨absent, priority⟩ := creatable j List.mem_cons_self
      have first := runs_insertJob now uuids (columns j List.mem_cons_self) absent priority
      have rest := runs_insertJobs family now uuids { db with jobs := db.jobs ++ [j] } nodup
        (fun j' mem => columns j' (List.mem_cons_of_mem _ mem)) ?_
      · rw [show (db.jobs ++ [j]) ++ jobs = db.jobs ++ j :: jobs by simp] at rest
        exact Runs.bind first rest
      · intro j' mem
        obtain ⟨absent', priority'⟩ := creatable j' (List.mem_cons_of_mem _ mem)
        refine ⟨findJob_eq_none.mpr ?_, priority'⟩
        rw [List.map_append, List.mem_append, not_or]
        refine ⟨findJob_eq_none.mp absent', fun last => fresh ?_⟩
        rw [← List.mem_singleton.mp last]
        exact List.mem_map_of_mem mem

/-- The ready rows of jobs that have none are created. -/
theorem runs_bulkCreateReadyExecutions {rows : List ReadyExecution} {db : Db}
    (all : ∀ r ∈ rows, (db.findJob r.jobId).isSome ∧ db.hasState .ready r.jobId = false)
    (nodup : (rows.map ReadyExecution.jobId).Nodup) :
    Runs (bulkCreateReadyExecutions rows false) ⟨db, fun _ => now, uuids⟩ ()
      ⟨db.setTable .ready (addRows (m := .ready) now db.ready rows), fun _ => now, uuids⟩ := by
  unfold bulkCreateReadyExecutions
  cases rows with
  | nil => rfl
  | cons row rows =>
      rw [if_neg (by simp)]
      exact Runs.bind (runs_pure _ _) (runs_bulkCreate (m := .ready) _ all nodup)

/-- Jobs are updated to what a function makes of them. -/
theorem runs_updateJobs {p : Job → Bool} {f g : Job → Job} {db : Db}
    (same : ∀ j, (if p j then f j else j) = g j) :
    Runs (updateJobsWhere p f) ⟨db, fun _ => now, uuids⟩ ()
      ⟨{ db with jobs := db.jobs.map g }, fun _ => now, uuids⟩ := by
  obtain rfl : (fun j => if p j then f j else j) = g := funext same
  rfl

theorem runs_bulkUpdateResults {settled : Settled} {db : Db} :
    Runs (bulkUpdateResults (discardedJobs now settled)) ⟨db, fun _ => now, uuids⟩ ()
      ⟨{ db with jobs := db.jobs.map (finishDiscarded now settled) }, fun _ => now, uuids⟩ := by
  refine runs_updateJobs ?_
  intro j
  unfold finishDiscarded
  cases found : (discardedJobs now settled).find? (fun i => i.id == j.id) with
  | none =>
      rw [Option.isSome_none, if_neg Bool.false_ne_true, if_neg]
      intro hit
      obtain ⟨i, mem, same⟩ := List.mem_map.mp (List.contains_iff_mem.mp hit)
      exact List.find?_eq_none.mp found i mem (beq_iff_eq.mpr same)
  | some i =>
      have mem := List.mem_of_find?_eq_some found
      have hit := List.find?_some found
      have same : i.id = j.id := beq_iff_eq.mp hit
      rw [Option.isSome_some, if_pos rfl,
        if_pos (List.contains_iff_mem.mpr (List.mem_map.mpr ⟨i, mem, same⟩))]
      obtain ⟨s, -, rfl⟩ := List.mem_map.mp mem
      rfl

/-- The batch is built as the groups are served. -/
theorem runs_buildDispatchRows {entries : List DispatchEntry} {db : Db}
    (storable : ∀ x ∈ slotEntries entries, Storable env.config.family now x.1)
    (placeable : ∀ s ∈ (bulkSettled now entries db.semaphores).1, Placeable env now s) :
    let settled := bulkSettled now entries db.semaphores
    Runs (buildDispatchRows env entries now) ⟨db, fun _ => now, uuids⟩
      (⟨readyRows now settled.1, scheduledRows settled.1, blockedRows env now settled.1,
        discardedJobs now settled.1⟩, settled.1)
      ⟨{ db with semaphores := settled.2 }, fun _ => now, uuids⟩ := by
  have groups := runs_dispatchGroups env now uuids (groupBy Prod.fst (slotEntries entries)) db ?_
  · have rows := appendDispatchRows_eq now .empty placeable
    refine Runs.bind groups (Runs.bind (runs_ofExcept rows _) ?_)
    exact runs_pure _ _
  · intro g mem
    have keys := fun x (inside : x ∈ g.2) => (mem_of_mem_groupBy mem inside).2
    refine ⟨?_, keys⟩
    obtain ⟨k, isKey, rfl⟩ := List.mem_map.mp mem
    obtain ⟨x, inside, rfl⟩ := List.mem_map.mp (mem_distinct.mp isKey)
    exact storable x inside

/-- In the order of the calls, whatever the order in which they were settled. -/
theorem inCallOrder_eq {entries : List DispatchEntry} {settled built : Settled}
    (positions : (entries.map DispatchEntry.position).Nodup)
    (entriesOf : settled.map Prod.fst = entries) (perm : built.Perm settled) :
    inCallOrder entries built = settled := by
  have unique : (built.map (fun s => s.1.position)).Nodup := by
    refine ((perm.map _).nodup_iff).mpr ?_
    rw [← entriesOf, List.map_map] at positions
    exact positions
  unfold inCallOrder
  rw [← entriesOf, List.filterMap_map]
  have found : ∀ s ∈ settled,
      built.find? (fun s' => s'.1.position == s.1.position) = some s :=
    fun s mem => find?_of_unique
      unique (perm.mem_iff.mpr mem)
  exact (List.filterMap_congr found).trans List.filterMap_some

/-- A job of the batch is found behind the others. -/
theorem findJob_append {db : Db} {jobs : List Job} {id : JobId} (mem : id ∈ jobs.map Job.id)
    (t : Table Semaphore) :
    (({ db with jobs := db.jobs ++ jobs, semaphores := t } : Db).findJob id).isSome := by
  rw [Option.isSome_iff_ne_none, ne_eq, findJob_eq_none, Decidable.not_not, List.map_append]
  exact List.mem_append.mpr (.inr mem)

/-- A bulk enqueue places what serving by groups gives. -/
theorem runs_enqueueBulkOnce {entries : List DispatchEntry} {db : Db}
    (decided : dispatchEntries env now 0 (entries.map DispatchEntry.job) = .ok entries)
    (nodup : (entries.map (fun e => e.job.id)).Nodup)
    (creatable : ∀ e ∈ entries, Creatable db e.job)
    (columns : ∀ e ∈ entries, e.job.policyColumns.all env.config.family.holds = true)
    (storable : ∀ x ∈ slotEntries entries, Storable env.config.family now x.1)
    (placeable : ∀ s ∈ (bulkSettled now entries db.semaphores).1, Placeable env now s)
    (ids : (settledIds (bulkSettled now entries db.semaphores).1).Perm
      (entries.map (fun e => e.job.id))) :
    let settled := bulkSettled now entries db.semaphores
    Runs (enqueueBulkOnce env (entries.map DispatchEntry.job)) ⟨db, fun _ => now, uuids⟩
      (inCallOrder entries settled.1)
      ⟨placed env now { db with
          jobs := db.jobs ++ entries.map DispatchEntry.job, semaphores := settled.2 } settled.1,
        fun _ => now, uuids⟩ := by
  dsimp only
  have jobIds : (entries.map DispatchEntry.job).map Job.id = entries.map (fun e => e.job.id) := by
    rw [List.map_map]
    rfl
  have unique := ids.nodup_iff.mpr nodup
  have known : ∀ id ∈ settledIds (bulkSettled now entries db.semaphores).1, ∃ e ∈ entries,
      e.job.id = id := fun id mem => List.mem_map.mp (ids.mem_iff.mp mem)
  have created := runs_insertJobs env.config.family now uuids db
    (by rw [jobIds]; exact nodup) (by
      intro j mem
      obtain ⟨e, inside, rfl⟩ := List.mem_map.mp mem
      exact columns e inside) (by
      intro j mem
      obtain ⟨e, inside, rfl⟩ := List.mem_map.mp mem
      exact ⟨(creatable e inside).absent, (creatable e inside).priority⟩)
  refine Runs.bind (runs_timezoneNow _) (Runs.bind (runs_ofExcept decided _) (runs_atomic ?_))
  refine Runs.bind created (Runs.bind (runs_buildDispatchRows storable placeable) ?_)
  dsimp only
  generalize bulkSettled now entries db.semaphores = settled at *
  have free : ∀ id ∈ settledIds settled.1, ∀ m, db.hasState m id = false := by
    intro id mem m
    obtain ⟨e, inside, rfl⟩ := known id mem
    exact (creatable e inside).stateless m
  have exist : ∀ id ∈ settledIds settled.1, id ∈ (entries.map DispatchEntry.job).map Job.id := by
    intro id mem
    rw [jobIds]
    exact ids.mem_iff.mp mem
  refine Runs.bind (runs_bulkCreateReadyExecutions ?_ (unique.sublist (readyRows_ids _))) ?_
  · intro r mem
    have inside := (readyRows_ids settled.1).subset (List.mem_map_of_mem mem)
    exact ⟨findJob_append (exist _ inside) settled.2, free _ inside .ready⟩
  refine Runs.bind (runs_bulkCreate (m := .scheduled) _ ?_ (unique.sublist (scheduledRows_ids _))) ?_
  · intro r mem
    have inside := (scheduledRows_ids settled.1).subset (List.mem_map_of_mem mem)
    exact ⟨findJob_append (exist _ inside) settled.2, free _ inside .scheduled⟩
  refine Runs.bind (runs_bulkCreate (m := .blocked) _ ?_ (unique.sublist (blockedRows_ids _))) ?_
  · intro r mem
    have inside := (blockedRows_ids settled.1).subset (List.mem_map_of_mem mem)
    exact ⟨findJob_append (exist _ inside) settled.2, free _ inside .blocked⟩
  exact Runs.bind runs_bulkUpdateResults (runs_pure _ _)

/-- No call, or all of them in one transaction. -/
theorem runs_enqueueJobsBulk {validate : Bool} {calls : List (TaskCall × JobId)}
    {entries : List DispatchEntry} {db : Db} (uuids : Nat → JobId)
    (prepared : prepareSubmissions env.config validate calls =
      .ok (entries.map DispatchEntry.job))
    (decided : dispatchEntries env now 0 (entries.map DispatchEntry.job) = .ok entries)
    (nodup : (entries.map (fun e => e.job.id)).Nodup)
    (creatable : ∀ e ∈ entries, Creatable db e.job)
    (columns : ∀ e ∈ entries, e.job.policyColumns.all env.config.family.holds = true)
    (storable : ∀ x ∈ slotEntries entries, Storable env.config.family now x.1)
    (placeable : ∀ s ∈ (bulkSettled now entries db.semaphores).1, Placeable env now s)
    (ids : (settledIds (bulkSettled now entries db.semaphores).1).Perm
      (entries.map (fun e => e.job.id))) :
    let settled := bulkSettled now entries db.semaphores
    Runs (enqueueJobsBulk env calls validate) ⟨db, fun _ => now, uuids⟩
      (inCallOrder entries settled.1)
      ⟨placed env now { db with
          jobs := db.jobs ++ entries.map DispatchEntry.job, semaphores := settled.2 } settled.1,
        fun _ => now, uuids⟩ := by
  refine Runs.bind (runs_ofExcept prepared _) ?_
  cases entries with
  | nil =>
      have same := placed_nil env now db
      rw [List.map_nil, List.append_nil]
      exact congrArg (fun db => EStateM.Result.ok [] (World.mk db (fun _ => now) uuids)) same.symm
  | cons e entries =>
      exact runs_enqueueBulkOnce decided nodup creatable columns storable placeable ids

end Bulk

/-! ## The same tables -/

/-- A row without its key. -/
def unkeyed : {m : StateModel} → m.Row → m.Row
  | .ready, r => ({ r with id := 0 } : ReadyExecution)
  | .scheduled, r => ({ r with id := 0 } : ScheduledExecution)
  | .claimed, r => ({ r with id := 0 } : ClaimedExecution)
  | .blocked, r => ({ r with id := 0 } : BlockedExecution)
  | .failed, r => ({ r with id := 0 } : FailedExecution)

/-- Rows stand in the order of their keys. -/
structure InKeyOrder (t : Table BlockedExecution) : Prop where
  increasing : t.rows.Pairwise (fun r r' => r.id < r'.id)
  bound : ∀ r ∈ t.rows, r.id < t.nextId

/-- The same jobs and semaphores, the same state rows up to their keys, and the waiters of every
concurrency key in the same order. -/
structure SameQueue (db db' : Db) : Prop where
  jobs : db.jobs = db'.jobs
  semaphores : db.semaphores = db'.semaphores
  rows : ∀ m, ((db.table m).rows.map unkeyed).Perm ((db'.table m).rows.map unkeyed)
  waiters : ∀ key, (db.blocked.rows.filter (fun r => r.concurrencyKey == key)).map
    (unkeyed (m := .blocked)) = (db'.blocked.rows.filter (fun r => r.concurrencyKey == key)).map
      (unkeyed (m := .blocked))
  others : (db.processes, db.pauses, db.recurringTasks, db.recurringExecutions) =
    (db'.processes, db'.pauses, db'.recurringTasks, db'.recurringExecutions)

section Same

variable {env : Env} {now : Time}

/-- The key of a row is no part of it. -/
theorem unkeyed_stampRow {m : StateModel} (row : m.Row) (id : Nat) :
    unkeyed (stampRow row id now) = unkeyed (stampRow row 0 now) := by
  cases m <;> rfl

theorem unkeyed_addRows {m : StateModel} (t : Table m.Row) (rows : List m.Row) :
    (addRows now t rows).rows.map unkeyed =
      t.rows.map unkeyed ++ rows.map (fun r => unkeyed (stampRow r 0 now)) := by
  unfold addRows
  induction rows generalizing t with
  | nil => simp
  | cons row rows ih =>
      rw [List.foldl_cons, ih, Table.rows_insert, List.map_append, List.map_singleton,
        unkeyed_stampRow, List.map_cons, List.append_assoc]
      rfl

/-- Rows that are added in another order are the same rows without their keys. -/
theorem perm_addRows {m : StateModel} (t : Table m.Row) {rows rows' : List m.Row}
    (perm : rows.Perm rows') :
    ((addRows now t rows).rows.map unkeyed).Perm ((addRows now t rows').rows.map unkeyed) := by
  rw [unkeyed_addRows, unkeyed_addRows]
  exact (perm.map _).append_left _

/-- The rows of a key, with a key that neither the number nor the time decides. -/
theorem filter_addRows (t : Table BlockedExecution) (rows : List BlockedExecution) (key : String) :
    ((addRows (m := .blocked) now t rows).rows.filter (fun r => r.concurrencyKey == key)).map
        (unkeyed (m := .blocked)) =
      (t.rows.filter (fun r => r.concurrencyKey == key)).map (unkeyed (m := .blocked)) ++
        (rows.filter (fun r => r.concurrencyKey == key)).map (unkeyed (m := .blocked)) := by
  have under : ∀ l : List BlockedExecution,
      (l.filter (fun r => r.concurrencyKey == key)).map (unkeyed (m := .blocked)) =
        (l.map (unkeyed (m := .blocked))).filter (fun r => r.concurrencyKey == key) := by
    intro l
    rw [List.filter_map]
    rfl
  rw [under, unkeyed_addRows, List.filter_append, ← under]
  refine congrArg _ ?_
  rw [under rows]
  rfl

/-- The waiters of one key are those of its entries. -/
theorem filter_blockedRows (settled : Settled) (key : String) :
    (blockedRows env now settled).filter (fun r => r.concurrencyKey == key) =
      blockedRows env now (settled.filter (waitsFor key)) := by
  unfold blockedRows
  rw [List.filter_filterMap, List.filterMap_filter, List.filter_filter, List.filterMap_filter]
  refine List.filterMap_congr fun s _ => ?_
  unfold waitsFor
  obtain ⟨⟨position, job, decision⟩, o⟩ := s
  cases decision with
  | outcome o' =>
      simp [blockedRowOf, Except.toOption, throw, throwThe, MonadExceptOf.throw]
  | concurrency k settings =>
      by_cases isBlocked : o = .blocked
      · cases built : (blockedRowOf env now job (.concurrency k settings)).toOption with
        | none => simp [isBlocked]
        | some row =>
            obtain ⟨-, _, same⟩ := jobId_of_blockedRowOf built
            cases same
            by_cases isKey : row.concurrencyKey = key
            · simp [isBlocked, isKey]
            · simp [isBlocked, isKey]
      · simp [isBlocked]

/-- Two orders that agree on the waiters of every key leave the same queue. -/
theorem sameQueue_placed {db : Db} {settled settled' : Settled} (perm : settled.Perm settled')
    (waiters : ∀ key, settled.filter (waitsFor key) = settled'.filter (waitsFor key)) :
    SameQueue (placed env now db settled) (placed env now db settled') where
  jobs := by
    refine List.map_congr_left fun j _ => ?_
    have ids := ((perm.filter (fun s => s.2 = .discarded)).map (fun s =>
      ({ s.1.job with finishedAt := some now, returnValue := none } : Job))).map Job.id
    have same : ((discardedJobs now settled).map Job.id).contains j.id =
        ((discardedJobs now settled').map Job.id).contains j.id := by
      rw [Bool.eq_iff_iff, List.contains_iff_mem, List.contains_iff_mem]
      exact ids.mem_iff
    unfold finishDiscarded
    rw [same]
  semaphores := rfl
  rows m := by
    cases m with
    | ready => exact perm_addRows (m := .ready) db.ready ((perm.filter _).map _)
    | scheduled => exact perm_addRows (m := .scheduled) db.scheduled ((perm.filter _).filterMap _)
    | blocked => exact perm_addRows (m := .blocked) db.blocked ((perm.filter _).filterMap _)
    | claimed => exact .refl _
    | failed => exact .refl _
  waiters key := by
    rw [show (placed env now db settled).blocked = addRows (m := .blocked) now db.blocked
      (blockedRows env now settled) from rfl, filter_addRows, filter_blockedRows, waiters key]
    rw [show (placed env now db settled').blocked = addRows (m := .blocked) now db.blocked
      (blockedRows env now settled') from rfl, filter_addRows, filter_blockedRows]
  others := rfl

/-- New rows take the next keys. -/
theorem InKeyOrder.addRows {t : Table BlockedExecution} (order : InKeyOrder t)
    (rows : List BlockedExecution) : InKeyOrder (DjQueue.addRows (m := .blocked) now t rows) := by
  unfold DjQueue.addRows
  induction rows generalizing t with
  | nil => exact order
  | cons row rows ih =>
      refine ih ⟨?_, ?_⟩
      · rw [Table.rows_insert, List.pairwise_append]
        refine ⟨order.increasing, List.pairwise_singleton _ _, fun r mem r' last => ?_⟩
        rw [List.mem_singleton.mp last]
        exact order.bound r mem
      · intro r mem
        rw [Table.nextId_insert]
        rcases List.mem_append.mp mem with old | last
        · exact Nat.lt_succ_of_lt (order.bound r old)
        · rw [List.mem_singleton.mp last]
          exact Nat.lt_succ_self _

end Same

/-! ## The theorem -/

/-- Calls that can be enqueued: each passes its validation, `uuid4` gives each a new key, and those
that resolve to one concurrency key share its policy. -/
structure ValidCalls (env : Env) (db : Db) (validate : Bool) (calls : List (TaskCall × JobId))
    (jobs : List Job) : Prop where
  prepared : prepareSubmissions env.config validate calls = .ok jobs
  ids : (jobs.map Job.id).Nodup
  absent : ∀ j ∈ jobs, db.findJob j.id = none
  priorities : ∀ j ∈ jobs, -100 ≤ j.priority ∧ j.priority ≤ 100
  shared : ∀ j ∈ jobs, ∀ j' ∈ jobs, j.concurrencyKey = j'.concurrencyKey →
    (j.concurrencyLimit, j.concurrencyDuration, j.concurrencyOnConflict) =
      (j'.concurrencyLimit, j'.concurrencyDuration, j'.concurrencyOnConflict)

/-- The unique keys of the semaphores, and the foreign keys from state rows to jobs. -/
structure Constrained (db : Db) : Prop where
  semaphores : SemaphoresNumbered db.semaphores
  states : ∀ m, ∀ id ∈ db.stateJobIds m, (db.findJob id).isSome

section Calls

variable {env : Env} {now : Time} {validate : Bool}

/-- The entries the batch form makes of its calls. -/
theorem submissions_of_prepareSubmissions : ∀ {calls : List (TaskCall × JobId)} {jobs : List Job}
    (position : Nat), prepareSubmissions env.config validate calls = .ok jobs →
    ∃ entries, dispatchEntries env now position jobs = .ok entries ∧
      entries.map DispatchEntry.job = jobs ∧
      entries.map DispatchEntry.position = List.range' position jobs.length ∧
      List.Forall₂ (Submission env now validate) calls entries
  | [], jobs, position, prepared => by
      cases prepared
      exact ⟨[], rfl, rfl, rfl, .nil⟩
  | (call, jobId) :: calls, jobs, position, prepared => by
      obtain ⟨job, first, prepared⟩ := of_bind_ok prepared
      obtain ⟨others, rest, prepared⟩ := of_bind_ok prepared
      cases prepared
      obtain ⟨decision, decided, decides⟩ := decided_of_prepareSubmission now first
      obtain ⟨entries, built, jobsOf, positions, submissions⟩ :=
        submissions_of_prepareSubmissions (position + 1) rest
      refine ⟨⟨position, job, decision⟩ :: entries, ?_, ?_, ?_, ?_⟩
      · rw [dispatchEntries, decides none, built]
        rfl
      · rw [List.map_cons, jobsOf]
      · rw [List.map_cons, positions, List.length_cons, List.range'_succ]
      · exact .cons ⟨first, decided, decides⟩ submissions

/-- The entries of the calls are decided. -/
theorem decided_of_mem {calls : List (TaskCall × JobId)} {entries : List DispatchEntry}
    (submissions : List.Forall₂ (Submission env now validate) calls entries) {e : DispatchEntry}
    (mem : e ∈ entries) :
    Decided e.job e.decision ∧ e.job.backendAlias = env.config.backendAlias := by
  induction submissions with
  | nil => cases mem
  | cons submission _ ih =>
      rcases List.mem_cons.mp mem with rfl | later
      · exact ⟨submission.decided, (submitted_of_prepareSubmission submission.prepared).own⟩
      · exact ih later

/-- Conflict rules have different texts. -/
theorem text_injective {rule rule' : OnConflict} (same : rule.text = rule'.text) : rule = rule' := by
  revert same
  cases rule <;> cases rule' <;> decide

/-- Jobs that share a policy are dispatched under one. -/
theorem sharesPolicy_of_decided {entries : List DispatchEntry}
    (decided : ∀ e ∈ entries, Decided e.job e.decision)
    (shared : ∀ e ∈ entries, ∀ e' ∈ entries, e.job.concurrencyKey = e'.job.concurrencyKey →
      (e.job.concurrencyLimit, e.job.concurrencyDuration, e.job.concurrencyOnConflict) =
        (e'.job.concurrencyLimit, e'.job.concurrencyDuration, e'.job.concurrencyOnConflict)) :
    SharesPolicy (slotEntries entries) := by
  intro x mem y mem' same
  obtain ⟨⟨key, settings⟩, e⟩ := x
  obtain ⟨⟨key', settings'⟩, e'⟩ := y
  obtain ⟨inside, decision⟩ := decision_of_mem_slotEntries mem
  obtain ⟨inside', decision'⟩ := decision_of_mem_slotEntries mem'
  have first := decided e inside
  have second := decided e' inside'
  rw [show e.decision = _ from decision] at first
  rw [show e'.decision = _ from decision'] at second
  obtain rfl : key = key' := same
  cases first with
  | concurrency isKey limit duration onConflict _ =>
      cases second with
      | concurrency isKey' limit' duration' onConflict' _ =>
          have policy := shared e inside e' inside' (isKey.trans isKey'.symm)
          rw [limit, duration, onConflict, limit', duration', onConflict'] at policy
          simp only [Prod.mk.injEq, Option.some.injEq] at policy
          obtain ⟨limits, durations, rules⟩ := policy
          have rule := text_injective rules
          cases settings
          cases settings'
          simp only at limits durations rule
          rw [limits, durations, rule]

/-- The entries ask for what their jobs ask for. -/
theorem asks_of_submissions {calls : List (TaskCall × JobId)} {entries : List DispatchEntry}
    (submissions : List.Forall₂ (Submission env now validate) calls entries) :
    entries.filterMap DispatchEntry.asks =
      (entries.map DispatchEntry.job).filterMap (Job.asks env now) := by
  rw [List.filterMap_map]
  refine List.filterMap_congr fun e mem => ?_
  obtain ⟨c, -, submission⟩ := exists_of_mem_right submissions mem
  rw [Function.comp_apply, Job.asks, submission.decides, DispatchEntry.asks]
  cases e.decision <;> rfl

/-- A slot that is asked for is asked for by an entry. -/
theorem mem_slotEntries_of_asks {entries : List DispatchEntry} {k : Asked}
    (mem : k ∈ entries.filterMap DispatchEntry.asks) :
    ∃ x ∈ slotEntries entries, x.1 = k ∧ x.2 ∈ entries ∧ x.2.asks = some k := by
  obtain ⟨e, inside, asks⟩ := List.mem_filterMap.mp mem
  refine ⟨(k, e), List.mem_filterMap.mpr ⟨e, inside, ?_⟩, rfl, inside, asks⟩
  unfold DispatchEntry.asks at asks
  cases decision : e.decision with
  | outcome o =>
      rw [decision] at asks
      cases asks
  | concurrency key settings =>
      rw [decision] at asks
      cases asks
      rfl

theorem asks_of_mem_slotEntries {entries : List DispatchEntry} {x : SlotEntry}
    (mem : x ∈ slotEntries entries) :
    x.1 ∈ entries.filterMap DispatchEntry.asks ∧ x.2.asks = some x.1 := by
  obtain ⟨inside, decision⟩ := decision_of_mem_slotEntries mem
  have asks : x.2.asks = some x.1 := by
    unfold DispatchEntry.asks
    rw [decision]
  exact ⟨List.mem_filterMap.mpr ⟨x.2, inside, asks⟩, asks⟩

end Calls

/-- At a fixed time `enqueue_jobs_bulk` gives every call the outcome that it gets when the calls are
enqueued one at a time, and leaves the same tables. -/
def MatchesSequential (env : Env) (db : Db) (validate : Bool) (calls : List (TaskCall × JobId))
    (now : Time) (uuids : Nat → JobId) : Prop :=
  ∃ bulk each db₁ db₂,
    Runs (enqueueJobsBulk env calls validate) ⟨db, fun _ => now, uuids⟩ bulk
        ⟨db₁, fun _ => now, uuids⟩ ∧
      Runs (enqueueEach env validate calls) ⟨db, fun _ => now, uuids⟩ each
        ⟨db₂, fun _ => now, uuids⟩ ∧
      bulk.map (fun s => (s.1.job, s.2)) = each ∧
      SameQueue db₁ db₂ ∧
      (InKeyOrder db.blocked → InKeyOrder db₁.blocked ∧ InKeyOrder db₂.blocked)

section Theorem

variable {env : Env} {db : Db} {validate : Bool} {calls : List (TaskCall × JobId)}
  {entries : List DispatchEntry} {now : Time}

/-- The jobs of valid calls can be created. -/
theorem creatable_of_valid (stored : Constrained db)
    (valid : ValidCalls env db validate calls (entries.map DispatchEntry.job)) :
    ∀ e ∈ entries, Creatable db e.job := by
  intro e mem
  have inside := List.mem_map_of_mem (f := DispatchEntry.job) mem
  refine ⟨valid.absent _ inside, fun m => ?_, valid.priorities _ inside⟩
  rw [Db.hasState, Bool.eq_false_iff]
  intro hit
  have there := stored.states m _ (List.contains_iff_mem.mp hit)
  rw [valid.absent _ inside] at there
  cases there

/-- The entries of one key share its policy. -/
theorem sharesPolicy_of_valid
    (valid : ValidCalls env db validate calls (entries.map DispatchEntry.job))
    (submissions : List.Forall₂ (Submission env now validate) calls entries) :
    SharesPolicy (slotEntries entries) :=
  sharesPolicy_of_decided (fun _ mem => (decided_of_mem submissions mem).1)
    (fun _ mem _ mem' => valid.shared _ (List.mem_map_of_mem mem) _ (List.mem_map_of_mem mem'))

/-- The entries of one key ask under one policy. -/
theorem onePolicy_of_valid
    (valid : ValidCalls env db validate calls (entries.map DispatchEntry.job))
    (submissions : List.Forall₂ (Submission env now validate) calls entries) :
    OnePolicy (entries.filterMap DispatchEntry.asks) where
  shared k mem k' mem' same := by
    obtain ⟨x, inside, rfl, -⟩ := mem_slotEntries_of_asks mem
    obtain ⟨x', inside', rfl, -⟩ := mem_slotEntries_of_asks mem'
    exact sharesPolicy_of_valid valid submissions x inside x' inside' same
  positive k mem := by
    obtain ⟨x, inside, rfl, -⟩ := mem_slotEntries_of_asks mem
    obtain ⟨there, decision⟩ := decision_of_mem_slotEntries inside
    have isDecided := (decided_of_mem submissions there).1
    rw [decision] at isDecided
    cases isDecided with
    | concurrency _ _ _ _ positive => exact positive

end Theorem

/-- A call of a task with so many slots, at most; with no key it needs none. -/
def callOf (limit : Int) (key : KeyValue) (runAfter : Option Time) : TaskCall where
  task := ⟨"app.task", "default", 0, runAfter, some (.int limit), some (.int 60), some (.str "block")⟩
  payload := some ⟨[], []⟩
  key := key

/-- Half of ten slots are free. -/
def halfFree : Db :=
  { Db.empty with semaphores := ⟨[⟨1, "account", 5, some 5, 10, 0, 0⟩], 2⟩ }

/-- Calls of two keys and of none. -/
def mixedCalls : List (TaskCall × JobId) := [
  (callOf 2 (.value (.str "account")) none, 11),
  (callOf 2 .unset none, 12),
  (callOf 2 (.value (.str "account")) none, 13),
  (callOf 2 (.value (.str "account")) (some 99), 14),
  (callOf 2 (.value (.str "account")) none, 15)]

/-- One of two slots of a key is taken. -/
def oneSlotLeft : Db :=
  { Db.empty with semaphores := ⟨[⟨1, "account", 1, some 1, 2, 0, 0⟩], 2⟩ }

/-- A database with serialized writes. -/
def serializedEnv : Env := Env.ofConfig { family := .sqlite }

end DjQueue
