import DjQueue.Accounting.Dispatch

/-!
# Enqueueing, redispatch and the ledger
-/

namespace DjQueue

open Relational

/-! ## Submissions -/

/-- What `_prepare_submission` fixes of a job. -/
structure Submitted (config : Config) (jobId : JobId) (job : Job) : Prop where
  id : job.id = jobId
  own : job.backendAlias = config.backendAlias
  unfinished : job.finishedAt = none
  key : job.concurrencyKey ≠ some ""
  policy : job.concurrencyKey ≠ none → job.historicalPolicy = false

/-- No concurrency key is the empty string. -/
theorem resolveConcurrencyKey_ne {v : KeyValue} : resolveConcurrencyKey v ≠ .ok (some "") := by
  intro ok
  cases v with
  | value v =>
      cases v with
      | str s =>
          simp only [resolveConcurrencyKey] at ok
          split at ok
          · cases ok
          · rename_i real
            cases ok
            exact real (.inl rfl)
      | _ => cases ok
  | _ => cases ok

/-- What a submission takes from the call. -/
theorem submitted_of_prepareSubmission {config : Config} {call : TaskCall} {validate : Bool}
    {jobId : JobId} {job : Job} (ok : prepareSubmission config call validate jobId = .ok job) :
    Submitted config jobId job := by
  simp only [prepareSubmission, bind, Except.bind] at ok
  split at ok
  · cases ok
  · split at ok
    · cases ok
    · split at ok
      · cases ok
      · rename_i key resolved
        split at ok
        · cases ok
        · rename_i policy made
          cases ok
          refine ⟨rfl, rfl, rfl, ?_, ?_⟩
          · intro empty
            rw [show key = some "" from empty] at resolved
            exact resolveConcurrencyKey_ne resolved
          · intro some
            cases key with
            | none => exact absurd rfl some
            | some k =>
                simp only [concurrencyPolicy] at made
                cases settings : taskConcurrencySettings config call.task with
                | error e =>
                    rw [settings] at made
                    cases made
                | ok s =>
                    rw [settings] at made
                    cases made
                    rfl

/-- A job with a persisted limit resolves to it, if to anything. -/
theorem resolvesTo_of_persisted {job : Job} {L : Int} (persisted : job.concurrencyLimit = some L) :
    job.ResolvesTo L := by
  intro env task settings ok
  have recent : job.historicalPolicy = false := by simp [Job.historicalPolicy, persisted]
  rw [concurrencySettingsForJob, if_neg (by simp [recent])] at ok
  split at ok
  · rename_i limit duration onConflict limitOf _ _
    split at ok
    · rename_i resolved made
      cases ok
      rw [persisted] at limitOf
      obtain rfl := Option.some.inj limitOf
      simp only [persistedConcurrencySettings, positiveIntOption, intOption, bind, Except.bind,
        pure, Except.pure] at made
      split at made
      · cases made
      · rename_i limit' first
        split at made
        · cases made
        · split at made
          · cases made
          · cases made
            split at first
            · cases first
            · cases first
              rfl
    · cases ok
  · cases ok

namespace Accounts

variable {a : Audit} {hand hand' : List JobId} {owed owed' : Nat} {w w' : World} {u : Unit}

/-! ## One job -/

/-- An enqueue creates a known job and dispatches it. -/
theorem enqueueJobWithDispatch {call : TaskCall} {validate : Bool} {jobId : JobId}
    {result : Job × DispatchOutcome} (good : Accounts a hand owed w.db) (new : jobId ∉ hand)
    (fresh : jobId ∈ a.fresh)
    (knows : ∀ job, prepareSubmission a.env.config call validate jobId = .ok job → a.Knows job)
    (run : Runs (enqueueJobWithDispatch a.env call validate jobId) w result w') :
    Accounts a hand owed w'.db := by
  obtain ⟨job, w₁, computed, rest₁⟩ := Runs.of_bind run
  obtain ⟨ok, rfl⟩ := Runs.of_ofExcept computed
  have submitted := submitted_of_prepareSubmission ok
  obtain ⟨v, w₂, inserted, rest₂⟩ := Runs.of_bind (Runs.of_atomic rest₁)
  obtain ⟨outcome, w₃, dispatched, done⟩ := Runs.of_bind rest₂
  obtain ⟨rfl, rfl⟩ := Runs.of_pure done
  have good₂ := good.insertJob (knows job ok) submitted.own (submitted.id ▸ fresh)
    (submitted.id ▸ new) submitted.unfinished inserted
  exact good₂.dispatchJob (knows job ok) submitted.own dispatched

/-! ## A batch -/

/-- The jobs of a batch have new keys, all different. -/
theorem of_run_insertJobs {family : BackendFamily} : ∀ {jobs : List Job} {w : World},
    Runs (jobs.forM (DjQueue.insertJob family)) w u w' →
    (jobs.map Job.id).Nodup ∧ ∀ j ∈ jobs, j.id ∉ w.db.jobs.map Job.id
  | [], w, _ => ⟨List.nodup_nil, fun _ mem => absurd mem List.not_mem_nil⟩
  | job :: jobs, w, run => by
      obtain ⟨v, w₁, head, tail⟩ := Runs.of_bind run
      obtain ⟨absent, db₁⟩ := of_run_insertJob head
      obtain ⟨nodup, new⟩ := of_run_insertJobs tail
      rw [db₁] at new
      have outside : ∀ j ∈ jobs, j.id ∉ w.db.jobs.map Job.id ∧ j.id ≠ job.id := by
        intro j mem
        have both := new j mem
        rw [List.map_append, List.mem_append, not_or, List.map_singleton, List.mem_singleton] at both
        exact both
      refine ⟨List.nodup_cons.mpr ⟨fun mem => ?_, nodup⟩, fun j mem => ?_⟩
      · obtain ⟨j, inJobs, same⟩ := List.mem_map.mp mem
        exact (outside j inJobs).2 same
      · rcases List.mem_cons.mp mem with rfl | mem
        · exact ids_of_findJob_none absent
        · exact (outside j mem).1

/-- The jobs of a batch are created one by one and are then in hand. -/
theorem insertJobs {family : BackendFamily} : ∀ {jobs : List Job} {hand : List JobId} {w : World},
    Accounts a hand owed w.db → (∀ j ∈ jobs, a.Knows j ∧ j.backendAlias = a.backendAlias ∧
      j.id ∈ a.fresh ∧ j.finishedAt = none) →
    (jobs.map Job.id).Nodup → (∀ j ∈ jobs, j.id ∉ hand) →
    Runs (jobs.forM (DjQueue.insertJob family)) w u w' →
      Accounts a (jobs.map Job.id ++ hand) owed w'.db
  | [], hand, w, good, _, _, _, run => by
      obtain ⟨-, rfl⟩ := Runs.of_pure run
      exact good
  | job :: jobs, hand, w, good, each, nodup, new, run => by
      obtain ⟨v, w₁, head, tail⟩ := Runs.of_bind run
      obtain ⟨knows, own, fresh, unfinished⟩ := each job List.mem_cons_self
      obtain ⟨apart, nodup⟩ := List.nodup_cons.mp nodup
      have good₁ := good.insertJob knows own fresh (new job List.mem_cons_self) unfinished head
      have good₂ := good₁.insertJobs (fun j mem => each j (List.mem_cons_of_mem _ mem)) nodup
        (fun j mem inHand => by
          rcases List.mem_cons.mp inHand with same | inHand
          · exact apart (List.mem_map.mpr ⟨j, mem, same⟩)
          · exact new j (List.mem_cons_of_mem _ mem) inHand) tail
      exact good₂.perm List.perm_middle

/-- A decision for every job of a batch. -/
theorem dispatchEntries {env : Env} {now : Time} :
    ∀ {jobs : List Job} {position : Nat} {entries : List DispatchEntry},
      (∀ j ∈ jobs, a.Knows j ∧ j.backendAlias = a.backendAlias) →
      dispatchEntries env now position jobs = .ok entries →
      entries.map DispatchEntry.job = jobs ∧ ∀ e ∈ entries, a.Entry e
  | [], position, entries, _, ok => by
      cases ok
      exact ⟨rfl, fun _ mem => absurd mem List.not_mem_nil⟩
  | job :: jobs, position, entries, each, ok => by
      simp only [DjQueue.dispatchEntries, bind, Except.bind] at ok
      split at ok
      · cases ok
      · rename_i decision decided
        split at ok
        · cases ok
        · rename_i others rest
          cases ok
          obtain ⟨jobsOf, all⟩ := dispatchEntries
            (fun j mem => each j (List.mem_cons_of_mem _ mem)) rest
          obtain ⟨knows, own⟩ := each job List.mem_cons_self
          refine ⟨by rw [List.map_cons, jobsOf], fun e mem => ?_⟩
          rcases List.mem_cons.mp mem with rfl | mem
          · exact ⟨knows, own, knows.decides decided⟩
          · exact all e mem

/-- The rows of a batch and what it discards make up its jobs. -/
theorem perm_of_built {entries : List DispatchEntry} {rows : DispatchRows}
    {settled : List (DispatchEntry × DispatchOutcome)} (perm : (settled.map Prod.fst).Perm entries)
    (built : a.Built rows settled) :
    (entries.map (fun e => e.job.id)).Perm (rows.ready.map ReadyExecution.jobId ++
      (rows.scheduled.map ScheduledExecution.jobId ++ (rows.blocked.map BlockedExecution.jobId ++
        rows.discarded.map Job.id))) := by
  have jobs := perm.map (fun e : DispatchEntry => e.job.id)
  have split := (perm_withOutcome settled).map Job.id
  rw [List.map_map] at jobs split
  simp only [List.map_append, List.append_assoc] at split
  rw [built.ready, built.scheduled, built.blocked, built.discarded]
  exact jobs.symm.trans split

/-- The state rows of a batch are written. -/
theorem createRows {rows : DispatchRows} {settled : List (DispatchEntry × DispatchOutcome)}
    {w₁ w₂ : World} {v v' : Unit}
    (good : Accounts a (rows.ready.map ReadyExecution.jobId ++
      (rows.scheduled.map ScheduledExecution.jobId ++
        (rows.blocked.map BlockedExecution.jobId ++ hand)))
      (owed + a.held .ready (rows.ready.map ReadyExecution.jobId)) w.db)
    (built : a.Built rows settled)
    (ready : Runs (DjQueue.bulkCreateReadyExecutions rows.ready false) w v w₁)
    (scheduled : Runs (DjQueue.bulkCreate .scheduled rows.scheduled) w₁ v' w₂)
    (blocked : Runs (DjQueue.bulkCreate .blocked rows.blocked) w₂ u w') :
    Accounts a hand owed w'.db := by
  have good₁ := good.bulkCreateReadyExecutions built.readyOwn ready
  have good₂ := bulkCreate (m := .scheduled)
    (by rw [Audit.held_of_inactive rfl]; exact good₁) built.scheduledOwn
    (fun _ _ => Audit.ownProcess_of_ne (by decide) _) scheduled
  exact bulkCreate (m := .blocked)
    (by rw [Audit.held_of_inactive rfl]; exact good₂) built.blockedOwn
    (fun _ _ => Audit.ownProcess_of_ne (by decide) _) blocked

theorem owns_of_mem_ids {jobs : List Job} {ids : List JobId}
    (owned : ∀ j ∈ jobs, a.owns j.id = true) (sub : ∀ id ∈ ids, id ∈ jobs.map Job.id) :
    ∀ id ∈ ids, a.owns id = true := by
  intro id mem
  obtain ⟨j, inJobs, rfl⟩ := List.mem_map.mp (sub id mem)
  exact owned j inJobs

theorem enqueueBulkOnce {jobs : List Job} {result : List (DispatchEntry × DispatchOutcome)}
    (good : Accounts a hand owed w.db)
    (each : ∀ j ∈ jobs, a.Knows j ∧ j.backendAlias = a.backendAlias ∧ j.id ∈ a.fresh ∧
      j.finishedAt = none) (new : ∀ j ∈ jobs, j.id ∉ hand)
    (run : Runs (enqueueBulkOnce a.env jobs) w result w') : Accounts a hand owed w'.db := by
  obtain ⟨now, w₁, read, rest₁⟩ := Runs.of_bind run
  rw [← of_run_timezoneNow read] at good
  obtain ⟨entries, w₂, computed, rest₂⟩ := Runs.of_bind rest₁
  obtain ⟨ok, rfl⟩ := Runs.of_ofExcept computed
  obtain ⟨jobsOf, all⟩ := dispatchEntries (fun j mem => ⟨(each j mem).1, (each j mem).2.1⟩) ok
  obtain ⟨v₃, w₃, inserted, rest₃⟩ := Runs.of_bind (Runs.of_atomic rest₂)
  have nodup := (of_run_insertJobs inserted).1
  have good₃ := good.insertJobs each nodup new inserted
  obtain ⟨⟨rows, settled⟩, w₄, build, rest₄⟩ := Runs.of_bind rest₃
  obtain ⟨perm, built, good₄⟩ := good₃.buildDispatchRows all build
  obtain ⟨v₅, w₅, ready, rest₅⟩ := Runs.of_bind rest₄
  obtain ⟨v₆, w₆, scheduled, rest₆⟩ := Runs.of_bind rest₅
  obtain ⟨v₇, w₇, blocked, rest₇⟩ := Runs.of_bind rest₆
  obtain ⟨v₈, w₈, discarded, done⟩ := Runs.of_bind rest₇
  obtain ⟨-, rfl⟩ := Runs.of_pure done
  have ids : jobs.map Job.id = entries.map (fun e => e.job.id) := by
    rw [← jobsOf, List.map_map]
    rfl
  have split := perm_of_built perm built
  rw [← ids] at split
  have good₇ := createRows
    (good₄.perm (by simpa [List.append_assoc] using split.append_right hand)) built ready scheduled
    blocked
  have finished : rows.discarded.filter (fun j => j.finishedAt.isSome) = rows.discarded :=
    List.filter_eq_self.mpr built.finished
  refine bulkUpdateResults (by rw [finished]; exact good₇) ?_ ?_ ?_ discarded
  · have all := split.nodup_iff.mp nodup
    exact all.sublist (((List.sublist_append_right _ _).trans (List.sublist_append_right _ _)).trans
      (List.sublist_append_right _ _))
  · intro j mem
    refine owns_of_mem_ids (fun i there => (each i there).1.owns (each i there).2.1)
      (fun id there => ?_) j.id (List.mem_map_of_mem mem)
    exact split.symm.subset (by simp only [List.mem_append]; exact .inr (.inr (.inr there)))
  · intro j mem unfinished
    rw [built.finished j mem] at unfinished
    cases unfinished

/-- Every job of a batch comes from a call. -/
theorem prepareSubmissions {config : Config} {validate : Bool} :
    ∀ {calls : List (TaskCall × JobId)} {jobs : List Job},
      DjQueue.prepareSubmissions config validate calls = .ok jobs →
      ∀ job ∈ jobs, ∃ c ∈ calls, prepareSubmission config c.1 validate c.2 = .ok job
  | [], jobs, ok, job, mem => by
      cases ok
      exact absurd mem List.not_mem_nil
  | (call, jobId) :: calls, jobs, ok, job, mem => by
      simp only [DjQueue.prepareSubmissions, bind, Except.bind] at ok
      split at ok
      · cases ok
      · rename_i first prepared
        split at ok
        · cases ok
        · rename_i others rest
          cases ok
          rcases List.mem_cons.mp mem with rfl | later
          · exact ⟨_, List.mem_cons_self, prepared⟩
          · obtain ⟨c, inCalls, ready⟩ := prepareSubmissions rest job later
            exact ⟨c, List.mem_cons_of_mem _ inCalls, ready⟩

/-! ## Redispatch -/

/-- A redispatch decides for each job, or sets it aside with the error of its policy. -/
theorem prepareRedispatch {env : Env} {now : Time} {isolate : Bool} :
    ∀ {jobs : List Job} {position : Nat} {prepared : Prepared},
      (∀ j ∈ jobs, a.Knows j ∧ j.backendAlias = a.backendAlias) →
      prepareRedispatch env now isolate position jobs = .ok prepared →
      (prepared.entries.map DispatchEntry.job ++ prepared.policyFailures.map Prod.fst).Perm jobs ∧
        ∀ e ∈ prepared.entries, a.Entry e
  | [], position, prepared, _, ok => by
      cases ok
      exact ⟨List.Perm.refl _, fun _ mem => absurd mem List.not_mem_nil⟩
  | job :: jobs, position, prepared, each, ok => by
      have others := fun j mem => each j (List.mem_cons_of_mem job mem)
      obtain ⟨knows, own⟩ := each job List.mem_cons_self
      unfold DjQueue.prepareRedispatch at ok
      split at ok
      · rename_i decision decided
        cases rest : DjQueue.prepareRedispatch env now isolate (position + 1) jobs with
        | error e =>
            rw [rest] at ok
            cases ok
        | ok later =>
            rw [rest] at ok
            cases ok
            obtain ⟨perm, all⟩ := prepareRedispatch others rest
            refine ⟨perm.cons job, fun e mem => ?_⟩
            rcases List.mem_cons.mp mem with rfl | mem
            · exact ⟨knows, own, knows.decides decided⟩
            · exact all e mem
      · split at ok
        · cases rest : DjQueue.prepareRedispatch env now isolate (position + 1) jobs with
          | error e =>
              rw [rest] at ok
              cases ok
          | ok later =>
              rw [rest] at ok
              cases ok
              obtain ⟨perm, all⟩ := prepareRedispatch others rest
              exact ⟨List.perm_middle.trans (perm.cons job), all⟩
        · cases ok
      · cases ok

/-- The instances `bulk_update` saves after a reset: those of the discarded jobs carry a time. -/
theorem perm_updatedJobs {jobs discarded : List Job} (nodup : (jobs.map Job.id).Nodup)
    (unfinished : ∀ j ∈ jobs, j.finishedAt = none)
    (nodup' : (discarded.map Job.id).Nodup) (sub : ∀ d ∈ discarded, d.id ∈ jobs.map Job.id)
    (finished : ∀ d ∈ discarded, d.finishedAt.isSome = true) :
    (updatedJobs true jobs discarded).map Job.id = jobs.map Job.id ∧
      (((updatedJobs true jobs discarded).filter (fun j => j.finishedAt.isSome)).map Job.id).Perm
        (discarded.map Job.id) := by
  have id : ∀ j, ((discarded.find? (fun d => d.id == j.id)).getD j).id = j.id := by
    intro j
    cases found : discarded.find? (fun d => d.id == j.id) with
    | none => rfl
    | some d =>
        have same := List.find?_some found
        exact beq_iff_eq.mp same
  have ids : (updatedJobs true jobs discarded).map Job.id = jobs.map Job.id := by
    rw [updatedJobs, if_pos rfl, List.map_map]
    exact List.map_congr_left fun j _ => id j
  refine ⟨ids, (List.perm_ext_iff_of_nodup ?_ nodup').mpr fun x => ?_⟩
  · exact (ids.symm ▸ nodup).sublist (List.filter_sublist.map _)
  · rw [List.mem_map, List.mem_map]
    constructor
    · rintro ⟨i, mem, rfl⟩
      obtain ⟨updated, done⟩ := List.mem_filter.mp mem
      rw [updatedJobs, if_pos rfl] at updated
      obtain ⟨j, inJobs, rfl⟩ := List.mem_map.mp updated
      cases found : discarded.find? (fun d => d.id == j.id) with
      | none =>
          rw [found, Option.getD_none, unfinished j inJobs] at done
          cases done
      | some d => exact ⟨d, List.mem_of_find?_eq_some found, rfl⟩
    · rintro ⟨d, mem, rfl⟩
      obtain ⟨j, inJobs, same⟩ := List.mem_map.mp (sub d mem)
      have found : discarded.find? (fun d => d.id == j.id) = some d := by
        cases found : discarded.find? (fun d => d.id == j.id) with
        | none => exact absurd (List.find?_eq_none.mp found d mem) (by simp [same])
        | some d' =>
            have hit := List.find?_some found
            exact congrArg some (List.inj_on_of_nodup_map nodup' (List.mem_of_find?_eq_some found) mem
              ((beq_iff_eq.mp hit).trans same))
      refine ⟨d, List.mem_filter.mpr ⟨?_, finished d mem⟩, rfl⟩
      rw [updatedJobs, if_pos rfl]
      exact List.mem_map.mpr ⟨j, inJobs, by rw [found, Option.getD_some]⟩

theorem resetIf_ids (reset : Bool) (jobs : List Job) :
    (resetIf reset jobs).map Job.id = jobs.map Job.id := by
  unfold resetIf
  split
  · rw [List.map_map]
    rfl
  · rfl

/-- A reset keeps what is known of a job. -/
theorem knows_resetIf {reset : Bool} {jobs : List Job}
    (each : ∀ j ∈ jobs, a.Knows j ∧ j.backendAlias = a.backendAlias) :
    ∀ j ∈ resetIf reset jobs, a.Knows j ∧ j.backendAlias = a.backendAlias := by
  intro j mem
  unfold resetIf at mem
  split at mem
  · obtain ⟨i, inJobs, rfl⟩ := List.mem_map.mp mem
    obtain ⟨knows, own⟩ := each i inJobs
    exact ⟨Audit.Knows.of_core (j := i) rfl knows, own⟩
  · exact each j mem

/-- `bulk_update` of a redispatch: the discarded jobs leave the hand. -/
theorem bulkUpdateRedispatch {reset : Bool} {jobs discarded : List Job}
    (good : Accounts a (discarded.map Job.id ++ hand) owed w.db)
    (nodup : (jobs.map Job.id).Nodup) (owned : ∀ j ∈ jobs, a.owns j.id = true)
    (nodup' : (discarded.map Job.id).Nodup)
    (sub : ∀ d ∈ discarded, d.id ∈ jobs.map Job.id)
    (finished : ∀ d ∈ discarded, d.finishedAt.isSome = true)
    (inHand : ∀ j ∈ jobs, j.id ∉ discarded.map Job.id → j.id ∈ hand)
    (run : Runs (DjQueue.bulkUpdateResults
      (updatedJobs reset (resetIf reset jobs) discarded)) w u w') :
    Accounts a hand owed w'.db := by
  cases reset with
  | false =>
      have all : discarded.filter (fun j => j.finishedAt.isSome) = discarded :=
        List.filter_eq_self.mpr finished
      refine bulkUpdateResults (by rw [all]; exact good) nodup' ?_ ?_ run
      · intro d mem
        obtain ⟨j, inJobs, same⟩ := List.mem_map.mp (sub d mem)
        rw [← same]
        exact owned j inJobs
      · intro d mem unfinished
        rw [finished d mem] at unfinished
        cases unfinished
  | true =>
      have ids := resetIf_ids true jobs
      obtain ⟨updatedIds, perm⟩ := perm_updatedJobs
        (ids.symm ▸ nodup)
        (fun j mem => by
          obtain ⟨i, -, rfl⟩ := List.mem_map.mp mem
          rfl) nodup' (fun d mem => ids.symm ▸ sub d mem) finished
      have back : ∀ j ∈ updatedJobs true (resetIf true jobs) discarded, ∃ i ∈ jobs, i.id = j.id := by
        intro j mem
        have there := List.mem_map_of_mem (f := Job.id) mem
        rw [updatedIds, ids] at there
        exact List.mem_map.mp there
      refine bulkUpdateResults (good.perm (perm.symm.append_right hand)) ?_ ?_ ?_ run
      · rw [updatedIds, ids]
        exact nodup
      · intro j mem
        obtain ⟨i, inJobs, same⟩ := back j mem
        rw [← same]
        exact owned i inJobs
      · intro j mem unfinished
        obtain ⟨i, inJobs, same⟩ := back j mem
        rw [← same]
        refine inHand i inJobs fun there => ?_
        -- an instance with a discarded job's key carries the time
        obtain ⟨k, filtered, same'⟩ := List.mem_map.mp (perm.symm.subset there)
        obtain ⟨inUpdated, done⟩ := List.mem_filter.mp filtered
        have equal := List.inj_on_of_nodup_map (by rw [updatedIds, ids]; exact nodup) inUpdated mem
          (same'.trans same)
        rw [equal, unfinished] at done
        cases done

/-- The failed row for a policy that raises. -/
theorem policyFailureRow_own {job : Job} {error : PyError} (knows : a.Knows job)
    (own : job.backendAlias = a.backendAlias) :
    a.OwnRow (m := .failed) (policyFailureRow job error) :=
  ownRow_failed knows.identity own

/-- `_redispatch_jobs` of jobs in hand: each gets a state. -/
theorem redispatchJobs {jobs : List Job} {isolate reset : Bool}
    {result : List Job × List (Job × PyError)}
    (good : Accounts a (jobs.map Job.id ++ hand) owed w.db)
    (each : ∀ j ∈ jobs, a.Knows j ∧ j.backendAlias = a.backendAlias)
    (nodup : (jobs.map Job.id).Nodup)
    (run : Runs (redispatchJobs a.env jobs isolate reset) w result w') :
    Accounts a hand owed w'.db := by
  obtain ⟨now, w₁, read, rest₁⟩ := Runs.of_bind run
  rw [← of_run_timezoneNow read] at good
  obtain ⟨v₂, w₂, check, rest₂⟩ := Runs.of_bind rest₁
  cases of_run_ensureJobIdsHaveNoOtherExecutionState check
  obtain ⟨prepared, w₃, computed, rest₃⟩ := Runs.of_bind rest₂
  obtain ⟨ok, rfl⟩ := Runs.of_ofExcept computed
  obtain ⟨parts, all⟩ := prepareRedispatch (knows_resetIf each) ok
  obtain ⟨⟨rows, settled⟩, w₄, build, rest₄⟩ := Runs.of_bind rest₃
  obtain ⟨perm, built, good₄⟩ := good.buildDispatchRows all build
  obtain ⟨v₅, w₅, updated, rest₅⟩ := Runs.of_bind rest₄
  obtain ⟨v₆, w₆, ready, rest₆⟩ := Runs.of_bind rest₅
  obtain ⟨v₇, w₇, scheduled, rest₇⟩ := Runs.of_bind rest₆
  obtain ⟨v₈, w₈, blocked, rest₈⟩ := Runs.of_bind rest₇
  obtain ⟨v₉, w₉, failed, done⟩ := Runs.of_bind rest₈
  obtain ⟨-, rfl⟩ := Runs.of_pure done
  -- every job is in one of the four lists of rows, or failed for its policy
  have ids : (jobs.map Job.id).Perm (rows.ready.map ReadyExecution.jobId ++
      (rows.scheduled.map ScheduledExecution.jobId ++ (rows.blocked.map BlockedExecution.jobId ++
        rows.discarded.map Job.id)) ++ prepared.policyFailures.map (fun f => f.1.id)) := by
    have total := (parts.map Job.id).symm
    rw [resetIf_ids, List.map_append, List.map_map, List.map_map] at total
    exact total.trans ((perm_of_built perm built).append_right _)
  have good₄ : Accounts a (rows.discarded.map Job.id ++ (rows.ready.map ReadyExecution.jobId ++
      (rows.scheduled.map ScheduledExecution.jobId ++ (rows.blocked.map BlockedExecution.jobId ++
        (prepared.policyFailures.map (fun f => f.1.id) ++ hand)))))
      (owed + a.held .ready (rows.ready.map ReadyExecution.jobId)) w₄.db := by
    refine good₄.perm ((ids.append_right hand).trans ?_)
    refine List.perm_iff_count.mpr fun x => ?_
    simp only [List.count_append]
    omega
  have good₅ := good₄.bulkUpdateRedispatch nodup
    (fun j mem => (each j mem).1.owns (each j mem).2) ?_ ?_ built.finished ?_ updated
  · have good₈ := createRows good₅ built ready scheduled blocked
    refine bulkCreate (m := .failed) ?_ ?_
      (fun _ _ => Audit.ownProcess_of_ne (by decide) _) failed
    · rw [Audit.held_of_inactive rfl, List.map_map]
      exact good₈
    · intro row mem
      obtain ⟨f, inFailures, rfl⟩ := List.mem_map.mp mem
      have there : f.1 ∈ resetIf reset jobs :=
        parts.subset (List.mem_append_right _ (List.mem_map_of_mem inFailures))
      obtain ⟨knows, own⟩ := knows_resetIf each f.1 there
      exact policyFailureRow_own knows own
  · refine (ids.nodup_iff.mp nodup).sublist ?_
    exact (((List.sublist_append_right _ _).trans (List.sublist_append_right _ _)).trans
      (List.sublist_append_right _ _)).trans (List.sublist_append_left _ _)
  · intro d mem
    have there := List.mem_map_of_mem (f := Job.id) mem
    refine ids.symm.subset ?_
    simp only [List.mem_append]
    exact .inl (.inr (.inr (.inr there)))
  · intro j mem absent
    have there := ids.subset (List.mem_map_of_mem (f := Job.id) mem)
    simp only [List.mem_append] at there ⊢
    tauto

end Accounts

end DjQueue
