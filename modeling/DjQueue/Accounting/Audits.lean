import DjQueue.Accounting.Recovery
import DjQueue.Accounting.Maintenance

/-!
# From one operation to the next

Between operations the tables are `Sound`: some audit accounts for them, with nothing in hand
and nothing owed.  Which audit does not matter (`Accounts.reaudit`), so every operation starts
with one of its own, and what it did is read off in terms of the tables alone (`Moves`).
-/

namespace DjQueue

open Relational

/-! ## The rows of a backend -/

/-- The backend a state row belongs to: its own column, or that of its job. -/
def Db.rowOwner (db : Db) {m : StateModel} (r : m.Row) : Option String :=
  (rowBackendAlias r).or ((db.findJob (rowJobId r)).map Job.backendAlias)

/-- Everything in the database that belongs to one backend. -/
structure View where
  jobs : List Job
  rows : (m : StateModel) → List m.Row
  processes : List Process
  pauses : List Pause
  recurringTasks : List RecurringTask
  recurringExecutions : List RecurringExecution

/-- The rows of a backend. -/
def Db.view (db : Db) (backendAlias : String) : View where
  jobs := db.jobs.filter (fun j => j.backendAlias == backendAlias)
  rows m := (db.table m).rows.filter (fun r => db.rowOwner r == some backendAlias)
  processes := db.processes.rows.filter (fun p => p.backendAlias == backendAlias)
  pauses := db.pauses.rows.filter (fun p => p.backendAlias == backendAlias)
  recurringTasks := db.recurringTasks.rows.filter (fun t => t.backendAlias == backendAlias)
  recurringExecutions :=
    db.recurringExecutions.rows.filter (fun e => e.backendAlias == backendAlias)

/-- The keys of a table: distinct, and below the next one. -/
structure Numbered {ρ : Type} (key : ρ → Nat) (t : Table ρ) : Prop where
  ids : (t.rows.map key).Nodup
  bound : ∀ r ∈ t.rows, key r < t.nextId

/-- What holds between operations. -/
structure Sound (tracked : Option (String × Int)) (db : Db) : Prop where
  accounts : ∃ a : Audit, a.tracked = tracked ∧ Accounts a [] 0 db
  pauses : Numbered Pause.id db.pauses

/-- An operation of backend `A` leads to sound tables and leaves the other backends alone. -/
structure Keeps (tracked : Option (String × Int)) (A : String) (db db' : Db) : Prop where
  sound : Sound tracked db'
  view : ∀ B, B ≠ A → db'.view B = db.view B

/-- What the operations on jobs do besides: no pause and no recurring task changes, no recurring
execution appears, and every new job has one of the keys the operation was given. -/
structure Moves (tracked : Option (String × Int)) (A : String) (fresh : List JobId) (db db' : Db) :
    Prop extends Keeps tracked A db db' where
  pauses : db'.pauses = db.pauses
  tasks : db'.recurringTasks = db.recurringTasks
  executions : ∃ p, db'.recurringExecutions = db.recurringExecutions.deleteWhere p
  created : ∀ j ∈ db'.jobs, j.id ∈ db.jobs.map Job.id ∨ j.id ∈ fresh

section Compose

variable {tracked : Option (String × Int)} {A : String} {fresh : List JobId} {db db' db'' : Db}

theorem Keeps.refl (sound : Sound tracked db) : Keeps tracked A db db := ⟨sound, fun _ _ => rfl⟩

theorem Keeps.trans (first : Keeps tracked A db db') (second : Keeps tracked A db' db'') :
    Keeps tracked A db db'' :=
  ⟨second.sound, fun B ne => (second.view B ne).trans (first.view B ne)⟩

theorem Moves.refl (sound : Sound tracked db) : Moves tracked A fresh db db where
  toKeeps := Keeps.refl sound
  pauses := rfl
  tasks := rfl
  executions := ⟨fun _ => false, by simp [Table.deleteWhere]⟩
  created j mem := .inl (List.mem_map_of_mem mem)

/-- Two operations in a row; both create from the same keys. -/
theorem Moves.trans (first : Moves tracked A fresh db db') (second : Moves tracked A fresh db' db'') :
    Moves tracked A fresh db db'' where
  toKeeps := first.toKeeps.trans second.toKeeps
  pauses := second.pauses.trans first.pauses
  tasks := second.tasks.trans first.tasks
  executions := by
    obtain ⟨p, trimmed⟩ := first.executions
    obtain ⟨q, trimmed'⟩ := second.executions
    refine ⟨fun e => p e || q e, ?_⟩
    rw [trimmed', trimmed]
    simp only [Table.deleteWhere, List.filter_filter, Table.mk.injEq, and_true]
    refine List.filter_congr fun e _ => ?_
    rw [Bool.not_or, Bool.and_comm]
  created j mem := by
    rcases second.created j mem with old | new
    · obtain ⟨i, there, same⟩ := List.mem_map.mp old
      exact same ▸ first.created i there
    · exact .inr new

end Compose

/-! ## Sessions -/

section Sessions

variable {α β : Type} {tracked : Option (String × Int)} {A : String} {fresh : List JobId}

/-- However the session ends, it leads from sound tables to sound ones and leaves the other
backends alone. -/
def Preserves (tracked : Option (String × Int)) (A : String) (x : Op α) : Prop :=
  Leads (fun w => Sound tracked w.db) (fun w w' => Keeps tracked A w.db w'.db) x

/-- However the session ends, it moved jobs and did nothing else. -/
def Settles (tracked : Option (String × Int)) (A : String) (fresh : List JobId) (x : Op α) : Prop :=
  Leads (fun w => Sound tracked w.db) (fun w w' => Moves tracked A fresh w.db w'.db) x

namespace Preserves

/-- What rolls back when it raises needs a look at its returns only. -/
theorem of_rollsBack {x : Op α} (rolls : RollsBack x)
    (returns : ∀ w a w', Sound tracked w.db → Runs x w a w' → Keeps tracked A w.db w'.db) :
    Preserves tracked A x := by
  refine Leads.of_returns (fun w e w' sound raised => ?_) returns
  rw [rolls _ _ _ raised]
  exact Keeps.refl sound

theorem of_reads {x : Op α} (reads : Reads x) : Preserves tracked A x := by
  refine of_rollsBack reads.raises fun w a w' sound run => ?_
  rw [reads.returns _ _ _ run]
  exact Keeps.refl sound

theorem bind {x : Op α} {f : α → Op β} (first : Preserves tracked A x)
    (second : ∀ w a w', Runs x w a w' → Preserves tracked A (f a)) :
    Preserves tracked A (x >>= f) :=
  Leads.bind (P := fun (w : World) => Sound tracked w.db)
    (R := fun (w w' : World) => Keeps tracked A w.db w'.db)
    (fun _ _ kept => kept.sound) (fun _ _ _ => Keeps.trans) first
    fun w a w' run sound => second w a w' run w' sound

end Preserves

namespace Settles

/-- What rolls back when it raises needs a look at its returns only. -/
theorem of_rollsBack {x : Op α} (rolls : RollsBack x)
    (returns : ∀ w a w', Sound tracked w.db → Runs x w a w' → Moves tracked A fresh w.db w'.db) :
    Settles tracked A fresh x := by
  refine Leads.of_returns (fun w e w' sound raised => ?_) returns
  rw [rolls _ _ _ raised]
  exact Moves.refl sound

theorem of_reads {x : Op α} (reads : Reads x) : Settles tracked A fresh x := by
  refine of_rollsBack reads.raises fun w a w' sound run => ?_
  rw [reads.returns _ _ _ run]
  exact Moves.refl sound

/-- A sequence of two operations; the second starts from a sound database. -/
theorem bind {x : Op α} {f : α → Op β} (first : Settles tracked A fresh x)
    (second : ∀ w a w', Runs x w a w' → Sound tracked w'.db →
      Moves tracked A fresh w'.db (finalState (f a) w').db) :
    Settles tracked A fresh (x >>= f) :=
  Leads.bind (P := fun (w : World) => Sound tracked w.db)
    (R := fun (w w' : World) => Moves tracked A fresh w.db w'.db)
    (fun _ _ moved => moved.sound) (fun _ _ _ => Moves.trans) first second

end Settles

end Sessions

/-! ## Changing the audit -/

/-- An audit starts with what it knows. -/
theorem Audit.Untouched.refl (a : Audit) : a.Untouched a.start where
  jobs := rfl
  rows _ := rfl
  processes := rfl
  pauses := rfl
  tasks := rfl
  executions := rfl
  trimmed := ⟨fun _ => false, by simp [Table.deleteWhere]⟩
  created _ mem := .inl (List.mem_map_of_mem mem)

namespace Accounts

variable {a a' : Audit} {db : Db}

/-- A state row repeats a job of the database. -/
theorem known_of_row (good : Accounts a [] 0 db) {m : StateModel} {r : m.Row}
    (mem : r ∈ (db.table m).rows) :
    ∃ j ∈ db.jobs, j.id = rowJobId r ∧ db.findJob (rowJobId r) = some j ∧
      a.known (rowJobId r) = some j.identity ∧ j.identity.Matches r := by
  obtain ⟨j, there, same⟩ := List.mem_map.mp (good.rowFits m r mem).job
  obtain ⟨i, known, columns⟩ := (good.rowFits m r mem).columns
  have identity := (good.knows j there).identity
  rw [same, known] at identity
  cases Option.some.inj identity
  exact ⟨j, there, same, same ▸ good.findJob_of_mem there, known, columns⟩

/-- Any audit that knows the jobs will do. -/
theorem reaudit (good : Accounts a [] 0 db) (tracked : a'.tracked = a.tracked)
    (known : ∀ j ∈ db.jobs, a'.known j.id = some j.identity) (start : a'.start = db) :
    Accounts a' [] 0 db := by
  have sameKnown : ∀ m, ∀ r ∈ (db.table m).rows, a'.known (rowJobId r) = a.known (rowJobId r) := by
    intro m r mem
    obtain ⟨j, there, same, -, identity, -⟩ := good.known_of_row mem
    rw [identity, ← same]
    exact known j there
  have sameTracks : a'.tracks = a.tracks := by
    funext key
    rw [Audit.tracks, Audit.tracks, tracked]
  have sameHeld : ∀ m, a'.held m (db.stateJobIds m) = a.held m (db.stateJobIds m) := by
    intro m
    unfold Audit.held
    split
    · refine List.countP_congr fun id mem => ?_
      obtain ⟨r, there, rfl⟩ := List.mem_map.mp mem
      rw [Audit.holds, Audit.holds, sameKnown m r there, sameTracks]
    · rfl
  refine {
    jobIds := good.jobIds
    knows := fun j mem => ⟨known j mem, (good.knows j mem).key, ?_⟩
    rowIds := good.rowIds
    rowBound := good.rowBound
    rowFits := fun m r mem => ?_
    places := good.places
    semaphores := good.semaphores
    slots := ?_
    registry := good.registry
    untouched := start ▸ Audit.Untouched.refl a' }
  · rw [tracked]
    exact (good.knows j mem).limit
  · obtain ⟨job, columns, process⟩ := good.rowFits m r mem
    refine ⟨job, ?_, ?_⟩
    · rwa [sameKnown m r mem]
    · rwa [sameKnown m r mem]
  · intro t tracks
    have slots := good.slots t (tracked ▸ tracks)
    have sameActive : a'.active db = a.active db := by
      rw [Audit.active, Audit.active, sameHeld .ready, sameHeld .claimed]
    rwa [sameActive]

/-- The owner of a row is the backend of its job. -/
theorem rowOwner_eq (good : Accounts a [] 0 db) {m : StateModel} {r : m.Row}
    (mem : r ∈ (db.table m).rows) :
    db.rowOwner r = (a.known (rowJobId r)).map Identity.backendAlias := by
  obtain ⟨j, -, -, found, known, columns⟩ := good.known_of_row mem
  rw [Db.rowOwner, found, known]
  cases own : rowBackendAlias r with
  | none => rfl
  | some b => exact congrArg some (columns.backend b own)

/-- Rows that are chosen among the foreign ones are the same, if the foreign ones are. -/
theorem filter_of_foreign {ρ : Type} {rows rows' : List ρ} {p q q' : ρ → Bool}
    (foreign : rows.filter p = rows'.filter p) (implies : ∀ r ∈ rows, q r = true → p r = true)
    (implies' : ∀ r ∈ rows', q' r = true → p r = true)
    (same : ∀ r, r ∈ rows → r ∈ rows' → q r = q' r) : rows.filter q = rows'.filter q' := by
  have narrow : ∀ (l : List ρ) (s : ρ → Bool), (∀ r ∈ l, s r = true → p r = true) →
      l.filter s = (l.filter p).filter s := by
    intro l s weaker
    rw [List.filter_filter]
    refine List.filter_congr fun r mem => ?_
    cases hit : s r with
    | false => rfl
    | true => rw [weaker r mem hit]; rfl
  rw [narrow rows q implies, narrow rows' q' implies', foreign]
  refine List.filter_congr fun r mem => ?_
  exact same r (List.mem_of_mem_filter (foreign ▸ mem)) (List.mem_of_mem_filter mem)

/-- The other backends see the tables the operation started from. -/
theorem view_eq (good : Accounts a [] 0 db) (start : Accounts a [] 0 a.start) {B : String}
    (ne : B ≠ a.backendAlias) : db.view B = a.start.view B := by
  obtain ⟨jobs, rows, processes, pauses, tasks, executions, -, -⟩ := good.untouched
  have column : ∀ {ρ : Type} (own : ρ → String) (l : List ρ), ∀ r ∈ l,
      (own r == B) = true → decide (own r ≠ a.backendAlias) = true := by
    intro ρ own l r _ hit
    rw [beq_iff_eq.mp hit]
    exact decide_eq_true ne
  have owner : ∀ {db : Db}, Accounts a [] 0 db → ∀ m, ∀ r ∈ (db.table m).rows,
      (db.rowOwner r == some B) = true → (!a.owns (rowJobId r)) = true := by
    intro db good m r mem hit
    rw [good.rowOwner_eq mem, beq_iff_eq] at hit
    obtain ⟨i, known, backend⟩ := Option.map_eq_some_iff.mp hit
    rw [Audit.owns, known, Option.any_some, backend, Bool.not_eq_true', beq_eq_false_iff_ne]
    exact ne
  unfold Db.view
  rw [View.mk.injEq]
  refine ⟨?_, ?_, ?_, by rw [pauses], by rw [tasks], ?_⟩
  · exact filter_of_foreign jobs (column Job.backendAlias _) (column Job.backendAlias _)
      (fun _ _ _ => rfl)
  · funext m
    exact filter_of_foreign (rows m) (owner good m) (owner start m) (fun r here there => by
      rw [good.rowOwner_eq here, start.rowOwner_eq there])
  · exact filter_of_foreign processes (column Process.backendAlias _)
      (column Process.backendAlias _) (fun _ _ _ => rfl)
  · exact filter_of_foreign executions (column RecurringExecution.backendAlias _)
      (column RecurringExecution.backendAlias _) (fun _ _ _ => rfl)

/-- What an audited operation did. -/
theorem moves (good : Accounts a [] 0 db) (start : Accounts a [] 0 a.start)
    (pauses : Numbered Pause.id a.start.pauses) :
    Moves a.tracked a.backendAlias a.fresh a.start db where
  sound := ⟨⟨a, rfl, good⟩, by rw [good.untouched.pauses]; exact pauses⟩
  view _ ne := good.view_eq start ne
  pauses := good.untouched.pauses
  tasks := good.untouched.tasks
  executions := good.untouched.trimmed
  created := good.untouched.created

end Accounts

/-! ## Opening an audit -/

/-- The audit of an operation that may come across the jobs `new` besides those in the tables, and
may create jobs under the keys `fresh`. -/
def auditOf (env : Env) (db : Db) (new : List Job) (fresh : List JobId)
    (tracked : Option (String × Int)) (positive : ∀ t, tracked = some t → 0 < t.2) : Audit where
  env := env
  known id := ((db.jobs ++ new).find? (fun j => j.id == id)).map Job.identity
  fresh := fresh
  tracked := tracked
  positive := positive
  start := db

/-- Sound tables, seen by an operation of the environment. -/
structure Opened (env : Env) (tracked : Option (String × Int)) (db : Db) (new : List Job)
    (fresh : List JobId) (a : Audit) : Prop where
  env : a.env = env
  tracked : a.tracked = tracked
  fresh : a.fresh = fresh
  start : a.start = db
  accounts : Accounts a [] 0 db
  pauses : Numbered Pause.id db.pauses
  known : ∀ j ∈ new, a.known j.id = some j.identity

/-- A sound database has an audit that knows its jobs and those about to be created. -/
theorem Sound.opened {tracked : Option (String × Int)} {db : Db} (sound : Sound tracked db)
    (env : Env) (new : List Job) (nodup : (new.map Job.id).Nodup)
    (apart : ∀ j ∈ new, j.id ∉ db.jobs.map Job.id) (fresh : List JobId) :
    ∃ a, Opened env tracked db new fresh a := by
  obtain ⟨⟨a, rfl, good⟩, pauses⟩ := sound
  have ids : ((db.jobs ++ new).map Job.id).Nodup := by
    rw [List.map_append, List.nodup_append]
    refine ⟨good.jobIds, nodup, ?_⟩
    rintro x old y added rfl
    obtain ⟨j, mem, rfl⟩ := List.mem_map.mp added
    exact apart j mem old
  have known : ∀ j ∈ db.jobs ++ new,
      (auditOf env db new fresh a.tracked a.positive).known j.id = some j.identity := by
    intro j mem
    have found := find?_of_unique ids mem
    simp only [auditOf, found, Option.map_some]
  exact ⟨auditOf env db new fresh a.tracked a.positive, rfl, rfl, rfl, rfl,
    good.reaudit rfl (fun j mem => known j (List.mem_append_left _ mem)) rfl, pauses,
    fun j mem => known j (List.mem_append_right _ mem)⟩

namespace Opened

variable {env : Env} {tracked : Option (String × Int)} {db db' : Db} {new : List Job}
  {fresh : List JobId} {a : Audit}

/-- An operation that keeps the accounts of its audit keeps what the database shows of other
backends. -/
theorem moves (opened : Opened env tracked db new fresh a) (good : Accounts a [] 0 db') :
    Moves tracked env.config.backendAlias fresh db db' := by
  obtain ⟨rfl, rfl, rfl, rfl, accounts, pauses, -⟩ := opened
  exact good.moves accounts pauses

/-- A prepared job that the audit knows. -/
theorem knows_of_prepared (opened : Opened env tracked db new fresh a) {call : TaskCall}
    {validate : Bool} {jobId : JobId} {job : Job} (mem : job ∈ new)
    (prepared : prepareSubmission env.config call validate jobId = .ok job)
    (resolves : Resolves tracked job) : a.Knows job where
  identity := opened.known job mem
  key := (submitted_of_prepareSubmission prepared).key
  limit := by
    rw [opened.tracked]
    exact resolves

end Opened

/-- An enqueue, audited with the job it creates. -/
theorem Sound.enqueueJobWithDispatch {tracked : Option (String × Int)} {env : Env} {call : TaskCall}
    {validate : Bool} {jobId : JobId} {result : Job × DispatchOutcome} {w w' : World}
    (sound : Sound tracked w.db)
    (resolves : ∀ job, prepareSubmission env.config call validate jobId = .ok job →
      Resolves tracked job)
    (run : Runs (enqueueJobWithDispatch env call validate jobId) w result w') :
    Moves tracked env.config.backendAlias [jobId] w.db w'.db := by
  obtain ⟨job, w₁, computed, rest₁⟩ := Runs.of_bind run
  obtain ⟨prepared, rfl⟩ := Runs.of_ofExcept computed
  obtain ⟨v, w₂, inserted, -⟩ := Runs.of_bind (Runs.of_atomic rest₁)
  obtain ⟨absent, -⟩ := Accounts.of_run_insertJob inserted
  have id := (submitted_of_prepareSubmission prepared).id
  have apart : ∀ j ∈ [job], j.id ∉ w₁.db.jobs.map Job.id := fun j mem =>
    List.mem_singleton.mp mem ▸ Accounts.ids_of_findJob_none absent
  obtain ⟨a, opened⟩ := sound.opened env [job] (List.nodup_singleton _) apart [jobId]
  obtain ⟨rfl⟩ := opened.env
  refine opened.moves (opened.accounts.enqueueJobWithDispatch List.not_mem_nil ?_ ?_ run)
  · rw [opened.fresh]
    exact List.mem_singleton_self _
  · intro job' prepared'
    obtain rfl : job = job' := Except.ok.inj (prepared.symm.trans prepared')
    exact opened.knows_of_prepared (List.mem_singleton_self _) prepared (resolves job prepared)

/-- A bulk enqueue, audited with the jobs it creates. -/
theorem Sound.enqueueJobsBulk {tracked : Option (String × Int)} {env : Env}
    {calls : List (TaskCall × JobId)} {validate : Bool}
    {result : List (DispatchEntry × DispatchOutcome)} {w w' : World} (sound : Sound tracked w.db)
    (resolves : ∀ c ∈ calls, ∀ job, prepareSubmission env.config c.1 validate c.2 = .ok job →
      Resolves tracked job)
    (run : Runs (enqueueJobsBulk env calls validate) w result w') :
    Moves tracked env.config.backendAlias (calls.map Prod.snd) w.db w'.db := by
  obtain ⟨jobs, w₁, computed, rest₁⟩ := Runs.of_bind run
  obtain ⟨ok, rfl⟩ := Runs.of_ofExcept computed
  have prepared := Accounts.prepareSubmissions ok
  split at rest₁
  · obtain ⟨-, rfl⟩ := Runs.of_pure rest₁
    exact Moves.refl sound
  · obtain ⟨now, w₂, read, rest₂⟩ := Runs.of_bind rest₁
    obtain ⟨entries, w₃, entered, rest₃⟩ := Runs.of_bind rest₂
    obtain ⟨-, rfl⟩ := Runs.of_ofExcept entered
    obtain ⟨v, w₄, inserted, -⟩ := Runs.of_bind (Runs.of_atomic rest₃)
    obtain ⟨nodup, apart⟩ := Accounts.of_run_insertJobs inserted
    rw [of_run_timezoneNow read] at apart
    obtain ⟨a, opened⟩ := sound.opened env jobs nodup apart (calls.map Prod.snd)
    obtain ⟨rfl⟩ := opened.env
    refine opened.moves (opened.accounts.enqueueBulkOnce (fun j mem => ?_)
      (fun _ _ => List.not_mem_nil) rest₁)
    obtain ⟨c, inCalls, ready⟩ := prepared j mem
    have submitted := submitted_of_prepareSubmission ready
    refine ⟨opened.knows_of_prepared mem ready (resolves c inCalls j ready), submitted.own, ?_,
      submitted.unfinished⟩
    rw [opened.fresh, submitted.id]
    exact List.mem_map_of_mem inCalls

end DjQueue
