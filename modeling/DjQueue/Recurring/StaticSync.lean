import DjQueue.Recurring.Firing

/-!
# The sync of the static tasks

A sync creates the missing rows, overwrites those that differ from the configuration and deletes
the rest.  It compares the payload a row was loaded with to the configured one.  A configured tuple,
or a key that is no string, is never equal to what its JSON column holds: such a task is saved by
every sync.  `True` is equal to `1`: a row with the one is left alone under a configuration with the
other.  The result is that a sync is an exact, idempotent and atomic reconcile of a table just when
a dynamic task has a configured key, or every configured payload is one that comes back from JSON
and no row has another payload that is equal to it.
-/

namespace DjQueue

open Relational

/-! ## Payloads -/

/-- `json.loads(json.dumps(payload)) == payload`: there is no tuple in it, and every key is a
string. -/
def ConfiguredPayload.comesBack (limits : Payloads.RecursionLimits) (p : ConfiguredPayload) :
    Bool :=
  match p.column limits with
  | .ok payload => payload.value.equals p.value
  | .error _ => false

/-- A row that compares equal to the configured payload has exactly that payload. -/
def RecurringTaskConfig.Exact (c : RecurringTaskConfig) (env : Env) (t : RecurringTask) : Prop :=
  t.hasPayload c = true → t.payload.map Except.ok = some (c.payload.column env.limits)

/-- A payload that comes back is saved as one equal to itself. -/
theorem ConfiguredPayload.column_of_comesBack {limits : Payloads.RecursionLimits}
    {p : ConfiguredPayload} (back : p.comesBack limits = true) :
    ∃ payload, p.column limits = .ok payload ∧ payload.value.equals p.value = true := by
  unfold comesBack at back
  cases column : p.column limits with
  | ok payload =>
      rw [column] at back
      exact ⟨payload, rfl, back⟩
  | error e =>
      rw [column] at back
      cases back

/-! ## Rows of a key -/

/-- The keys of the table of recurring tasks. -/
structure TaskTable (t : Table RecurringTask) : Prop where
  ids : Numbered RecurringTask.id t
  keys : (t.rows.map (fun t => (t.backendAlias, t.key))).Nodup

section Rows

variable {env : Env} {db : Db} {t t' : RecurringTask} {c : RecurringTaskConfig}
  {desired : RecurringDefinition} {now : Time}

/-- The row is the one of a configured key. -/
def RecurringTaskConfig.hits (c : RecurringTaskConfig) (env : Env) (t : RecurringTask) : Bool :=
  t.backendAlias == env.config.backendAlias && t.key == c.key

/-- The row of a config is that of its backend and key. -/
theorem hits_iff : c.hits env t = true ↔
    t.backendAlias = env.config.backendAlias ∧ t.key = c.key := by
  simp [RecurringTaskConfig.hits]

theorem TaskTable.eq_of_hits (table : TaskTable db.recurringTasks)
    (mem : t ∈ db.recurringTasks.rows) (mem' : t' ∈ db.recurringTasks.rows)
    (hit : c.hits env t = true) (hit' : c.hits env t' = true) : t = t' := by
  rw [hits_iff] at hit hit'
  apply List.inj_on_of_nodup_map table.keys mem mem'
  simp only [hit.1, hit.2, hit'.1, hit'.2]

/-- The row found is that of the config. -/
theorem hits_of_find (found : db.findRecurringTask env.config.backendAlias c.key = some t) :
    t ∈ db.recurringTasks.rows ∧ c.hits env t = true :=
  ⟨List.mem_of_find?_eq_some found, List.find?_some found⟩

/-- Where none is found, none is there. -/
theorem not_hits_of_find_none
    (absent : db.findRecurringTask env.config.backendAlias c.key = none) :
    ∀ t ∈ db.recurringTasks.rows, c.hits env t = false := fun t mem =>
  Bool.not_eq_true _ ▸ List.find?_eq_none.mp absent t mem

theorem find_of_hits (mem : t ∈ db.recurringTasks.rows) (hit : c.hits env t = true) :
    ∃ t', db.findRecurringTask env.config.backendAlias c.key = some t' := by
  cases found : db.findRecurringTask env.config.backendAlias c.key with
  | some t' => exact ⟨t', rfl⟩
  | none =>
      rw [not_hits_of_find_none found t mem] at hit
      cases hit

/-- The columns rewritten are those asked for. -/
theorem redefine_definition : (t.redefine desired now).definition = desired := by
  unfold RecurringTask.redefine
  split
  · assumption
  · rfl

/-- The others stay, but for the cursor of a schedule that changed. -/
theorem redefine_columns : (t.redefine desired now).id = t.id ∧
    (t.redefine desired now).backendAlias = t.backendAlias ∧
    (t.redefine desired now).key = t.key ∧
    (t.redefine desired now).nextRunAt =
      if t.schedule = desired.schedule then t.nextRunAt else none := by
  unfold RecurringTask.redefine
  split
  · rename_i same
    have schedules : t.schedule = desired.schedule := congrArg RecurringDefinition.schedule same
    exact ⟨rfl, rfl, rfl, (if_pos schedules).symm⟩
  · exact ⟨rfl, rfl, rfl, rfl⟩

/-- Where the text decides, a row that has the payload has the payload's text. -/
theorem payload_of_exact (exact_ : c.Exact env t) {payload : Payload}
    (column : c.payload.column env.limits = .ok payload) (has : t.hasPayload c = true) :
    t.payload = some payload := by
  have same := exact_ has
  rw [column] at same
  cases own : t.payload with
  | none =>
      rw [own] at same
      cases same
  | some p =>
      rw [own] at same
      cases same
      rfl

/-- A row whose payload is the one saved. -/
theorem exact_of_payload {payload : Payload} (own : t.payload = some payload)
    (column : c.payload.column env.limits = .ok payload) : c.Exact env t := fun _ => by
  rw [own, column]
  rfl

/-- A row that is left alone is the configured one. -/
theorem agrees_iff {payload : Payload} (column : c.payload.column env.limits = .ok payload)
    (back : payload.value.equals c.payload.value = true) (exact_ : c.Exact env t) :
    t.agrees c = true ↔ t.definition = c.desired (some payload) := by
  unfold RecurringTask.agrees
  rw [Bool.and_eq_true, beq_iff_eq]
  constructor
  · rintro ⟨has, same⟩
    rw [same, payload_of_exact exact_ column has]
  · intro same
    have own : t.payload = some payload := congrArg RecurringDefinition.payload same
    refine ⟨?_, own ▸ same⟩
    unfold RecurringTask.hasPayload
    rw [own]
    exact back

/-- The payload a save leaves is the configured one. -/
theorem savedPayload_eq {payload : Payload} (column : c.payload.column env.limits = .ok payload)
    (exact_ : c.Exact env t) : t.savedPayload env.limits c = .ok (some payload) := by
  unfold RecurringTask.savedPayload
  split
  · case isTrue has => exact congrArg Except.ok (payload_of_exact exact_ column has)
  · rw [column]
    rfl

end Rows

/-! ## What a sync leaves -/

/-- A configured key belongs to a dynamic task of the backend. -/
def Db.TakenDynamically (db : Db) (env : Env) (configs : List RecurringTaskConfig) : Prop :=
  ∃ c ∈ configs, ∃ t ∈ db.recurringTasks.rows, c.hits env t = true ∧ t.static = false

/-- A static row of the backend. -/
def RecurringTask.ownStatic (t : RecurringTask) (env : Env) : Bool :=
  t.backendAlias == env.config.backendAlias && t.static

/-- The static tasks of the backend are the configured ones, and nothing else has changed. -/
structure Reconciled (env : Env) (configs : List RecurringTaskConfig) (db db' : Db) : Prop where
  frame : db' = { db with recurringTasks := db'.recurringTasks }
  table : TaskTable db'.recurringTasks
  keys : ((db'.recurringTasks.rows.filter (fun t => t.ownStatic env)).map RecurringTask.key).Perm
    (configs.map RecurringTaskConfig.key)
  configured : ∀ t' ∈ db'.recurringTasks.rows, t'.ownStatic env = true →
    ∃ c ∈ configs, t'.key = c.key ∧ ∃ payload, c.payload.column env.limits = .ok payload ∧
      t'.definition = c.desired (some payload)
  surviving : ∀ t ∈ db.recurringTasks.rows, t.ownStatic env = true →
    ∀ t' ∈ db'.recurringTasks.rows, t'.ownStatic env = true → t'.key = t.key →
      t'.id = t.id ∧
        t'.nextRunAt = if t.schedule = t'.schedule then t.nextRunAt else none
  created : ∀ t' ∈ db'.recurringTasks.rows, t'.ownStatic env = true →
    (∀ t ∈ db.recurringTasks.rows, t.ownStatic env = true → t.key ≠ t'.key) → t'.nextRunAt = none
  others : db'.recurringTasks.rows.filter (fun t => !t.ownStatic env) =
    db.recurringTasks.rows.filter (fun t => !t.ownStatic env)

/-- What a sync is for: it reconciles the table once and for all, or refuses and leaves it. -/
structure SyncReconciles (env : Env) (configs : List RecurringTaskConfig) (w : World) : Prop where
  refuses : w.db.TakenDynamically env configs → ∃ message w',
    Raises (upsertStaticRecurringTasks env configs) w (.enqueueError message) w' ∧ w'.db = w.db
  reconciles : ¬w.db.TakenDynamically env configs → ∃ w',
    Runs (upsertStaticRecurringTasks env configs) w () w' ∧ Reconciled env configs w.db w'.db ∧
      ∀ clock uuids, ∃ w'',
        Runs (upsertStaticRecurringTasks env configs) ⟨w'.db, clock, uuids⟩ () w'' ∧
          w''.db = w'.db

/-- The settings of a backend are accepted. -/
structure ValidConfigs (env : Env) (configs : List RecurringTaskConfig) : Prop where
  accepted : validateRecurringConfigs env configs = .ok ()
  keys : (configs.map RecurringTaskConfig.key).Nodup

/-! ## The steps of a sync -/

/-- The tables with other recurring tasks. -/
def Db.withTasks (db : Db) (tasks : Table RecurringTask) : Db := { db with recurringTasks := tasks }

/-- The session after it has read the clock, with these tables. -/
def World.ticked (w : World) (db : Db) : World := ⟨db, fun n => w.clock (n + 1), w.uuids⟩

section Sync

variable {env : Env} {configs : List RecurringTaskConfig} {c : RecurringTaskConfig}
  {w w' : World}

/-- The check passes over static rows. -/
theorem runs_ensureNotDynamic
    (static : ∀ t ∈ w.db.recurringTasks.rows, c.hits env t = true → t.static = true) :
    Runs (ensureNotDynamic env c) w () w := by
  have none : (w.db.findRecurringTask env.config.backendAlias c.key).any (fun t => !t.static) =
      false := by
    cases found : w.db.findRecurringTask env.config.backendAlias c.key with
    | none => rfl
    | some t =>
        rcases hits_of_find found with ⟨mem, hit⟩
        simp [static t mem hit]
  apply Runs.bind (runs_getDb w)
  rw [none]
  exact runs_pure _ _

/-- The check raises on a dynamic row. -/
theorem fails_ensureNotDynamic (table : TaskTable w.db.recurringTasks) {t : RecurringTask}
    (mem : t ∈ w.db.recurringTasks.rows) (hit : c.hits env t = true) (dynamic : t.static = false) :
    ∃ message, Fails (ensureNotDynamic env c) w (.enqueueError message) := by
  rcases find_of_hits mem hit with ⟨t', found⟩
  rcases hits_of_find found with ⟨mem', hit'⟩
  obtain rfl := table.eq_of_hits mem mem' hit hit'
  refine ⟨_, Runs.bind_fails (runs_getDb w) (Fails.of_runIf ?_ (Fails.of_throw _ _))⟩
  rw [found]
  simp [dynamic]

/-- The check of the keys raises for the first dynamic task. -/
theorem fails_ensureNoneDynamic (table : TaskTable w.db.recurringTasks) :
    ∀ {configs : List RecurringTaskConfig}, w.db.TakenDynamically env configs →
      ∃ message, Fails (configs.forM (ensureNotDynamic env)) w (.enqueueError message)
  | [], taken => by
      rcases taken with ⟨c, mem, -⟩
      cases mem
  | c :: rest, taken => by
      by_cases first : ∃ t ∈ w.db.recurringTasks.rows, c.hits env t = true ∧ t.static = false
      · rcases first with ⟨t, mem, hit, dynamic⟩
        rcases fails_ensureNotDynamic table mem hit dynamic with ⟨message, fails⟩
        exact ⟨message, fails.bind⟩
      · have static : ∀ t ∈ w.db.recurringTasks.rows, c.hits env t = true → t.static = true := by
          intro t mem hit
          by_contra dynamic
          exact first ⟨t, mem, hit, Bool.not_eq_true _ ▸ dynamic⟩
        have later : w.db.TakenDynamically env rest := by
          rcases taken with ⟨c', mem, there⟩
          rcases List.mem_cons.mp mem with rfl | mem
          · exact absurd there first
          · exact ⟨c', mem, there⟩
        rcases fails_ensureNoneDynamic table later with ⟨message, fails⟩
        exact ⟨message, Runs.bind_fails (runs_ensureNotDynamic static) fails⟩

/-- The rows with those of the configured tasks that had none. -/
structure Completed (env : Env) (done : List RecurringTaskConfig) (db db' : Db) : Prop where
  frame : db' = db.withTasks db'.recurringTasks
  table : TaskTable db'.recurringTasks
  rows : ∃ new, db'.recurringTasks.rows = db.recurringTasks.rows ++ new ∧
    ∀ t' ∈ new, (∃ c ∈ done, ∃ payload now id, c.payload.column env.limits = .ok payload ∧
      t' = (c.desired (some payload)).newTask env.config.backendAlias c.key now id) ∧
        ∀ t ∈ db.recurringTasks.rows, (t.backendAlias, t.key) ≠ (t'.backendAlias, t'.key)
  present : ∀ c ∈ done, ∃ t ∈ db'.recurringTasks.rows, c.hits env t = true

theorem Completed.start {db : Db} (table : TaskTable db.recurringTasks) :
    Completed env [] db db where
  frame := rfl
  table := table
  rows := ⟨[], (List.append_nil _).symm, fun _ mem => absurd mem List.not_mem_nil⟩
  present _ mem := absurd mem List.not_mem_nil

/-- A configured task that has its row needs no other. -/
theorem Completed.found {done : List RecurringTaskConfig} {db db' : Db} {t : RecurringTask}
    (completed : Completed env done db db') (mem : t ∈ db'.recurringTasks.rows)
    (hit : c.hits env t = true) : Completed env (done ++ [c]) db db' := by
  rcases completed with ⟨frame, table, ⟨new, rows, made⟩, present⟩
  refine ⟨frame, table, ⟨new, rows, ?_⟩, ?_⟩
  · intro t' mem'
    rcases made t' mem' with ⟨⟨c', inside, from_⟩, apart⟩
    exact ⟨⟨c', List.mem_append_left _ inside, from_⟩, apart⟩
  · intro c' inside
    rcases List.mem_append.mp inside with inside | here
    · exact present c' inside
    · rw [List.mem_singleton.mp here]
      exact ⟨t, mem, hit⟩

/-- A row inserted under a new id and a new name keeps the table in order. -/
theorem TaskTable.insert {t : Table RecurringTask} {mk : Nat → RecurringTask}
    (table : TaskTable t) (own : (mk t.nextId).id = t.nextId)
    (apart : ∀ r ∈ t.rows, (r.backendAlias, r.key) ≠
      ((mk t.nextId).backendAlias, (mk t.nextId).key)) : TaskTable (t.insert mk) := by
  refine ⟨table.ids.insert own, ?_⟩
  rw [Table.rows_insert, List.map_append, List.map_singleton, List.nodup_append]
  refine ⟨table.keys, List.nodup_singleton _, ?_⟩
  intro key old key' new
  rcases List.mem_map.mp old with ⟨r, mem, rfl⟩
  rw [List.mem_singleton.mp new]
  exact apart r mem

/-- Creating the row of a config that has none. -/
theorem Completed.create {done : List RecurringTaskConfig} {db db' : Db} {payload : Payload}
    {now : Time} (completed : Completed env done db db')
    (column : c.payload.column env.limits = .ok payload)
    (absent : ∀ t ∈ db'.recurringTasks.rows, c.hits env t = false) :
    Completed env (done ++ [c]) db (db'.withTasks (db'.recurringTasks.insert
      ((c.desired (some payload)).newTask env.config.backendAlias c.key now))) := by
  have apart : ∀ t ∈ db'.recurringTasks.rows,
      (t.backendAlias, t.key) ≠ (env.config.backendAlias, c.key) := by
    intro t mem same
    have hit := absent t mem
    rw [hits_iff.mpr (Prod.mk.inj same)] at hit
    cases hit
  rcases completed with ⟨frame, table, ⟨new, rows, made⟩, present⟩
  refine ⟨?_, table.insert rfl apart, ⟨new ++ [(c.desired (some payload)).newTask
    env.config.backendAlias c.key now db'.recurringTasks.nextId], ?_, ?_⟩, ?_⟩
  · rw [frame]
    rfl
  · rw [Db.withTasks, Table.rows_insert, rows, List.append_assoc]
  · intro t' mem'
    rcases List.mem_append.mp mem' with old | here
    · rcases made t' old with ⟨⟨c', inside, from_⟩, apart'⟩
      exact ⟨⟨c', List.mem_append_left _ inside, from_⟩, apart'⟩
    · rw [List.mem_singleton.mp here]
      refine ⟨⟨c, List.mem_append_right _ List.mem_cons_self, payload, now, _, column, rfl⟩, ?_⟩
      intro t mem
      exact apart t (rows ▸ List.mem_append_left _ mem)
  · intro c' inside
    rcases List.mem_append.mp inside with inside | here
    · rcases present c' inside with ⟨t, mem, hit⟩
      exact ⟨t, List.mem_append_left _ mem, hit⟩
    · rw [List.mem_singleton.mp here]
      exact ⟨_, List.mem_append_right _ List.mem_cons_self, hits_iff.mpr ⟨rfl, rfl⟩⟩

/-- A config whose row is there is passed over. -/
theorem runs_createStaticRecurringTask_of_hits {t : RecurringTask}
    (mem : t ∈ w.db.recurringTasks.rows) (hit : c.hits env t = true) :
    Runs (createStaticRecurringTask env c) w () (w.ticked w.db) := by
  rcases find_of_hits mem hit with ⟨t', found⟩
  refine Runs.bind (runs_timezoneNow w) (Runs.bind (runs_getDb _) ?_)
  rw [found]
  exact runs_pure _ _

theorem runs_createStaticRecurringTask {done : List RecurringTaskConfig} {db : Db}
    (back : c.payload.comesBack env.limits = true) (completed : Completed env done db w.db) :
    ∃ w', Runs (createStaticRecurringTask env c) w () w' ∧
      Completed env (done ++ [c]) db w'.db := by
  rcases ConfiguredPayload.column_of_comesBack back with ⟨payload, column, -⟩
  cases found : w.db.findRecurringTask env.config.backendAlias c.key with
  | some t =>
      rcases hits_of_find found with ⟨mem, hit⟩
      exact ⟨_, runs_createStaticRecurringTask_of_hits mem hit, completed.found mem hit⟩
  | none =>
      have created : Completed env (done ++ [c]) db (w.db.withTasks (w.db.recurringTasks.insert
          ((c.desired (some payload)).newTask env.config.backendAlias c.key (w.clock 0)))) :=
        completed.create column (not_hits_of_find_none found)
      refine ⟨w.ticked _, Runs.bind (runs_timezoneNow w) (Runs.bind (runs_getDb _) ?_), created⟩
      rw [found]
      exact Runs.bind (runs_ofExcept column _) (runs_modifyDb _ _)

/-- The creations, one after the other. -/
theorem runs_createStaticRecurringTasks (table : TaskTable w.db.recurringTasks)
    (back : ∀ c ∈ configs, c.payload.comesBack env.limits = true) :
    ∃ w', Runs (configs.forM (createStaticRecurringTask env)) w () w' ∧
      Completed env configs w.db w'.db := by
  have loop := runs_forM (f := createStaticRecurringTask env) (l := configs) (s := w)
    (fun rest s => ∃ done, configs = done ++ rest ∧ Completed env done w.db s.db)
    (fun c rest s ⟨done, split, completed⟩ => by
      have inside : c ∈ configs := split ▸ List.mem_append_right _ List.mem_cons_self
      rcases runs_createStaticRecurringTask (back c inside) completed with ⟨t, run, next⟩
      exact ⟨t, run, done ++ [c], by rw [split, List.append_assoc]; rfl, next⟩)
    ⟨[], rfl, .start table⟩
  rcases loop with ⟨w', run, done, split, completed⟩
  rw [List.append_nil] at split
  exact ⟨w', run, split ▸ completed⟩

/-- The row of a configured task has its definition. -/
def Updated (env : Env) (done : List RecurringTaskConfig) (t t' : RecurringTask) : Prop :=
  (∀ c ∈ done, c.hits env t = true → ∃ payload now, c.payload.column env.limits = .ok payload ∧
    t' = t.redefine (c.desired (some payload)) now) ∧
  ((∀ c ∈ done, c.hits env t = false) → t' = t)

section Updated

variable {done : List RecurringTaskConfig} {t t' : RecurringTask}

theorem Updated.start (t : RecurringTask) : Updated env [] t t :=
  ⟨fun _ mem => absurd mem List.not_mem_nil, fun _ => rfl⟩

/-- A row is as it was, or rewritten for a config that is its own. -/
theorem Updated.cases (updated : Updated env done t t') : t' = t ∨ ∃ c ∈ done,
    c.hits env t = true ∧ ∃ payload now, c.payload.column env.limits = .ok payload ∧
      t' = t.redefine (c.desired (some payload)) now := by
  by_cases hit : ∃ c ∈ done, c.hits env t = true
  · rcases hit with ⟨c, mem, hit⟩
    exact .inr ⟨c, mem, hit, updated.1 c mem hit⟩
  · exact .inl (updated.2 fun c mem => Bool.not_eq_true _ ▸ fun here => hit ⟨c, mem, here⟩)

/-- The columns that name the row stay. -/
theorem Updated.keys (updated : Updated env done t t') :
    t'.id = t.id ∧ t'.backendAlias = t.backendAlias ∧ t'.key = t.key := by
  rcases updated.cases with rfl | ⟨c, -, -, payload, now, -, rfl⟩
  · exact ⟨rfl, rfl, rfl⟩
  · exact ⟨redefine_columns.1, redefine_columns.2.1, redefine_columns.2.2.1⟩

/-- An updated row stays the row of the same configs. -/
theorem Updated.hits (updated : Updated env done t t') (c : RecurringTaskConfig) :
    c.hits env t' = c.hits env t := by
  rw [RecurringTaskConfig.hits, RecurringTaskConfig.hits, updated.keys.2.1, updated.keys.2.2]

/-- A row of a task whose turn has not come is as it was. -/
theorem Updated.eq_of_fresh (updated : Updated env done t t') (hit : c.hits env t = true)
    (fresh : c.key ∉ done.map RecurringTaskConfig.key) : t' = t := by
  apply updated.2
  intro c' mem
  by_contra other
  have key := (hits_iff.mp (Bool.not_eq_false _ ▸ other)).2
  exact fresh ((hits_iff.mp hit).2 ▸ key ▸ List.mem_map_of_mem mem)

/-- The row is updated once, as the configured keys are distinct. -/
theorem Updated.next (updated : Updated env done t t') {payload : Payload} {now : Time}
    (column : c.payload.column env.limits = .ok payload)
    (fresh : c.key ∉ done.map RecurringTaskConfig.key) :
    Updated env (done ++ [c]) t
      (if c.hits env t' then t'.redefine (c.desired (some payload)) now else t') := by
  rw [updated.hits c]
  by_cases hit : c.hits env t = true
  · rw [if_pos hit, updated.eq_of_fresh hit fresh]
    refine ⟨fun c' mem hit' => ?_, fun miss => ?_⟩
    · rcases List.mem_append.mp mem with mem | here
      · have key := (hits_iff.mp hit').2
        exact absurd ((hits_iff.mp hit).2 ▸ key ▸ List.mem_map_of_mem mem) fresh
      · rw [List.mem_singleton.mp here]
        exact ⟨payload, now, column, rfl⟩
    · rw [miss c (List.mem_append_right _ List.mem_cons_self)] at hit
      cases hit
  · rw [if_neg hit]
    refine ⟨fun c' mem hit' => ?_, fun miss => ?_⟩
    · rcases List.mem_append.mp mem with mem | here
      · exact updated.1 c' mem hit'
      · rw [List.mem_singleton.mp here] at hit'
        exact absurd hit' hit
    · exact updated.2 fun c' mem => miss c' (List.mem_append_left _ mem)

end Updated

/-- Rewriting keeps the table in order. -/
theorem TaskTable.redefine {t : Table RecurringTask} (table : TaskTable t)
    (p : RecurringTask → Bool) (desired : RecurringDefinition) (now : Time) :
    TaskTable (t.updateWhere p (fun t => t.redefine desired now)) := by
  refine ⟨table.ids.updateWhere (fun _ => redefine_columns.1) p, ?_⟩
  have same : (t.updateWhere p (fun t => t.redefine desired now)).rows.map
      (fun t => (t.backendAlias, t.key)) = t.rows.map (fun t => (t.backendAlias, t.key)) := by
    apply map_updateWhere
    intro x
    rw [redefine_columns.2.1, redefine_columns.2.2.1]
  rw [same]
  exact table.keys

/-- A row that agrees with its config is left alone. -/
theorem runs_updateStaticRecurringTask_of_agrees (table : TaskTable w.db.recurringTasks)
    {t : RecurringTask} (mem : t ∈ w.db.recurringTasks.rows) (hit : c.hits env t = true)
    (agrees : t.agrees c = true) :
    Runs (updateStaticRecurringTask env c) w () (w.ticked w.db) := by
  rcases find_of_hits mem hit with ⟨t', found⟩
  rcases hits_of_find found with ⟨mem', hit'⟩
  obtain rfl := table.eq_of_hits mem mem' hit hit'
  refine Runs.bind (runs_timezoneNow w) (Runs.bind (runs_getDb _) ?_)
  rw [found]
  dsimp only
  rw [if_pos agrees]
  exact runs_pure _ _

/-- Saving the row when a field differs is redefining it. -/
theorem runs_updateStaticRecurringTask (table : TaskTable w.db.recurringTasks)
    (back : c.payload.comesBack env.limits = true)
    (exact_ : ∀ t ∈ w.db.recurringTasks.rows, c.hits env t = true → c.Exact env t)
    (present : ∃ t ∈ w.db.recurringTasks.rows, c.hits env t = true) :
    ∃ w' payload now, Runs (updateStaticRecurringTask env c) w () w' ∧
      c.payload.column env.limits = .ok payload ∧ w'.db = w.db.withTasks
        (w.db.recurringTasks.updateWhere (c.hits env)
          (fun t => t.redefine (c.desired (some payload)) now)) := by
  rcases ConfiguredPayload.column_of_comesBack back with ⟨payload, column, equal⟩
  rcases present with ⟨t, mem, hit⟩
  rcases find_of_hits mem hit with ⟨t', found⟩
  rcases hits_of_find found with ⟨mem', hit'⟩
  obtain rfl := table.eq_of_hits mem mem' hit hit'
  have own : ∀ r ∈ w.db.recurringTasks.rows, c.hits env r = true → r = t :=
    fun r inside here => table.eq_of_hits inside mem here hit
  by_cases agrees : t.agrees c = true
  · have same := (agrees_iff column equal (exact_ t mem hit)).mp agrees
    have kept : w.db.recurringTasks.updateWhere (c.hits env)
        (fun t => t.redefine (c.desired (some payload)) (w.clock 0)) = w.db.recurringTasks := by
      apply Table.updateWhere_eq_self
      intro r inside here
      rw [own r inside here, RecurringTask.redefine, if_pos same]
    exact ⟨_, payload, w.clock 0, runs_updateStaticRecurringTask_of_agrees table mem hit agrees,
      column, congrArg w.db.withTasks kept.symm⟩
  · have differs : t.definition ≠ c.desired payload :=
      fun same => agrees ((agrees_iff column equal (exact_ t mem hit)).mpr same)
    have saved : w.db.recurringTasks.updateWhere (c.hits env)
        (fun t => t.overwrite (c.desired (some payload)) (w.clock 0)) =
          w.db.recurringTasks.updateWhere (c.hits env)
            (fun t => t.redefine (c.desired (some payload)) (w.clock 0)) := by
      apply Table.updateWhere_congr
      intro r inside here
      rw [own r inside here, RecurringTask.redefine, if_neg differs]
    refine ⟨w.ticked _, payload, w.clock 0,
      Runs.bind (runs_timezoneNow w) (Runs.bind (runs_getDb _) ?_), column,
      congrArg w.db.withTasks saved⟩
    rw [found]
    dsimp only
    rw [if_neg agrees]
    exact Runs.bind (runs_ofExcept (savedPayload_eq column (exact_ t mem hit)) _)
      (runs_modifyDb _ _)

/-- Where the updates of the configured tasks have got to. -/
structure UpdatedRows (env : Env) (done : List RecurringTaskConfig) (db db' : Db) : Prop where
  frame : db' = db.withTasks db'.recurringTasks
  table : TaskTable db'.recurringTasks
  rows : List.Forall₂ (Updated env done) db.recurringTasks.rows db'.recurringTasks.rows

theorem runs_updateStaticRecurringTasks (table : TaskTable w.db.recurringTasks)
    (back : ∀ c ∈ configs, c.payload.comesBack env.limits = true)
    (exact_ : ∀ c ∈ configs, ∀ t ∈ w.db.recurringTasks.rows, c.hits env t = true → c.Exact env t)
    (distinct : (configs.map RecurringTaskConfig.key).Nodup)
    (present : ∀ c ∈ configs, ∃ t ∈ w.db.recurringTasks.rows, c.hits env t = true) :
    ∃ w', Runs (configs.forM (updateStaticRecurringTask env)) w () w' ∧
      UpdatedRows env configs w.db w'.db := by
  have loop := runs_forM (f := updateStaticRecurringTask env) (l := configs) (s := w)
    (fun rest s => ∃ done, configs = done ++ rest ∧ UpdatedRows env done w.db s.db)
    (fun c rest s ⟨done, split, updated⟩ => by
      have inside : c ∈ configs := split ▸ List.mem_append_right _ List.mem_cons_self
      have fresh : c.key ∉ done.map RecurringTaskConfig.key := by
        rw [split, List.map_append, List.nodup_append] at distinct
        exact fun old => distinct.2.2 _ old _ List.mem_cons_self rfl
      have there : ∃ t ∈ s.db.recurringTasks.rows, c.hits env t = true := by
        rcases present c inside with ⟨t, mem, hit⟩
        rcases exists_of_mem_left updated.rows mem with ⟨t', mem', becomes⟩
        exact ⟨t', mem', (becomes.hits c).trans hit⟩
      have still : ∀ t' ∈ s.db.recurringTasks.rows, c.hits env t' = true → c.Exact env t' := by
        intro t' mem' hit'
        rcases exists_of_mem_right updated.rows mem' with ⟨t, mem, becomes⟩
        have hit := (becomes.hits c) ▸ hit'
        rw [becomes.eq_of_fresh hit fresh]
        exact exact_ c inside t mem hit
      rcases runs_updateStaticRecurringTask updated.table (back c inside) still there with
        ⟨t, payload, now, run, column, eq⟩
      refine ⟨t, run, done ++ [c], by rw [split, List.append_assoc]; rfl, ?_⟩
      rw [eq]
      refine ⟨?_, updated.table.redefine _ _ _, ?_⟩
      · rw [updated.frame]
        rfl
      · apply List.forall₂_map_right_iff.mpr
        exact updated.rows.imp fun a b becomes => becomes.next column fresh)
    ⟨[], rfl, rfl, table, List.forall₂_same.mpr fun t _ => .start t⟩
  rcases loop with ⟨w', run, done, split, updated⟩
  rw [List.append_nil] at split
  exact ⟨w', run, split ▸ updated⟩

/-! ## A whole sync -/

/-- The static tasks that are no longer configured. -/
def Db.dropUnconfigured (db : Db) (env : Env) (configs : List RecurringTaskConfig) : Db :=
  db.withTasks (db.recurringTasks.deleteWhere (fun t =>
    t.backendAlias == env.config.backendAlias && t.static &&
      !(configs.map RecurringTaskConfig.key).contains t.key))

/-- The rows left are those configured, or not the backend's own static ones. -/
theorem mem_dropUnconfigured {db : Db} {t : RecurringTask} :
    t ∈ (db.dropUnconfigured env configs).recurringTasks.rows ↔
      t ∈ db.recurringTasks.rows ∧
        (t.ownStatic env = true → t.key ∈ configs.map RecurringTaskConfig.key) := by
  simp only [Db.dropUnconfigured, Db.withTasks, Table.rows_deleteWhere, List.mem_filter,
    RecurringTask.ownStatic]
  grind

/-- Deleting keeps the table in order. -/
theorem TaskTable.dropUnconfigured {db : Db} (table : TaskTable db.recurringTasks) :
    TaskTable (db.dropUnconfigured env configs).recurringTasks := by
  have fewer : (db.dropUnconfigured env configs).recurringTasks.rows.Sublist
      db.recurringTasks.rows := List.filter_sublist
  refine ⟨⟨table.ids.ids.sublist (fewer.map _), fun t mem => ?_⟩, table.keys.sublist (fewer.map _)⟩
  exact table.ids.bound t (fewer.subset mem)

section Outcome

variable {db mid out : Db}

theorem ownStatic_iff {t : RecurringTask} :
    t.ownStatic env = true ↔ t.backendAlias = env.config.backendAlias ∧ t.static = true := by
  simp [RecurringTask.ownStatic]

/-- The rows of configured keys are static. -/
theorem Completed.static (completed : Completed env configs db mid)
    (free : ¬db.TakenDynamically env configs) {c : RecurringTaskConfig} (inside : c ∈ configs)
    {t : RecurringTask} (mem : t ∈ mid.recurringTasks.rows) (hit : c.hits env t = true) :
    t.static = true := by
  rcases completed.rows with ⟨new, rows, made⟩
  rw [rows] at mem
  rcases List.mem_append.mp mem with old | new
  · by_contra dynamic
    exact free ⟨c, inside, t, old, hit, Bool.not_eq_true _ ▸ dynamic⟩
  · rcases made t new with ⟨⟨c', -, payload, now, id, -, rfl⟩, -⟩
    rfl

/-- A new row has the payload of its configured task. -/
theorem Completed.exact (completed : Completed env configs db mid)
    (distinct : (configs.map RecurringTaskConfig.key).Nodup)
    (exact_ : ∀ c ∈ configs, ∀ t ∈ db.recurringTasks.rows, c.hits env t = true → c.Exact env t)
    {c : RecurringTaskConfig} (inside : c ∈ configs) {t : RecurringTask}
    (mem : t ∈ mid.recurringTasks.rows) (hit : c.hits env t = true) : c.Exact env t := by
  rcases completed.rows with ⟨new, rows, made⟩
  rw [rows] at mem
  rcases List.mem_append.mp mem with old | new
  · exact exact_ c inside t old hit
  · rcases made t new with ⟨⟨c', inside', payload, now, id, column, rfl⟩, -⟩
    obtain rfl := List.inj_on_of_nodup_map distinct inside' inside (hits_iff.mp hit).2
    exact exact_of_payload rfl column

/-- An update leaves the backend's static rows static, and every other row alone. -/
theorem Completed.ownStatic_of_updated (completed : Completed env configs db mid)
    (free : ¬db.TakenDynamically env configs) {t t' : RecurringTask}
    (mem : t ∈ mid.recurringTasks.rows) (updated : Updated env configs t t') :
    t'.ownStatic env = t.ownStatic env ∧ (t.ownStatic env = false → t' = t) := by
  rcases updated.cases with rfl | ⟨c, inside, hit, payload, now, -, rfl⟩
  · exact ⟨rfl, fun _ => rfl⟩
  · have static := completed.static free inside mem hit
    have own := (hits_iff.mp hit).1
    have before : t.ownStatic env = true := ownStatic_iff.mpr ⟨own, static⟩
    have after : (t.redefine (c.desired (some payload)) now).static = true :=
      congrArg RecurringDefinition.static redefine_definition
    refine ⟨?_, fun other => absurd before (other ▸ Bool.false_ne_true)⟩
    rw [before]
    exact ownStatic_iff.mpr ⟨redefine_columns.2.1.trans own, after⟩

/-- A static row that is left has a configured key, and is its row updated. -/
theorem UpdatedRows.origin (updated : UpdatedRows env configs mid out) {t' : RecurringTask}
    (mem : t' ∈ (out.dropUnconfigured env configs).recurringTasks.rows)
    (own : t'.ownStatic env = true) :
    ∃ t ∈ mid.recurringTasks.rows, Updated env configs t t' ∧ ∃ c ∈ configs, t'.key = c.key ∧
      ∃ payload now, c.payload.column env.limits = .ok payload ∧
        t' = t.redefine (c.desired (some payload)) now := by
  rcases mem_dropUnconfigured.mp mem with ⟨inside, kept⟩
  rcases List.mem_map.mp (kept own) with ⟨c, configured, key⟩
  rcases exists_of_mem_right updated.rows inside with ⟨t, there, becomes⟩
  have hit : c.hits env t = true := by
    rw [← becomes.hits]
    exact hits_iff.mpr ⟨(ownStatic_iff.mp own).1, key.symm⟩
  exact ⟨t, there, becomes, c, configured, key.symm, becomes.1 c configured hit⟩

/-- Created, updated and pruned, the table is that of the configs. -/
theorem reconciled_of_steps (free : ¬db.TakenDynamically env configs)
    (distinct : (configs.map RecurringTaskConfig.key).Nodup)
    (completed : Completed env configs db mid) (updated : UpdatedRows env configs mid out) :
    Reconciled env configs db (out.dropUnconfigured env configs) := by
  rcases completed.rows with ⟨new, rows, made⟩
  have left : TaskTable (out.dropUnconfigured env configs).recurringTasks :=
    updated.table.dropUnconfigured
  refine ⟨?_, left, ?_, ?_, ?_, ?_, ?_⟩
  · rw [Db.dropUnconfigured, updated.frame, completed.frame]
    rfl
  · have unique : ((out.dropUnconfigured env configs).recurringTasks.rows.filter
        (fun t => t.ownStatic env)).map RecurringTask.key |>.Nodup := by
      apply List.Nodup.map_on ?_ (List.Nodup.filter _ (List.Nodup.of_map _ left.keys))
      intro t mem t' mem' same
      rcases List.mem_filter.mp mem with ⟨there, own⟩
      rcases List.mem_filter.mp mem' with ⟨there', own'⟩
      apply List.inj_on_of_nodup_map left.keys there there'
      simp only [(ownStatic_iff.mp own).1, (ownStatic_iff.mp own').1, same]
    apply (List.perm_ext_iff_of_nodup unique distinct).mpr
    intro key
    constructor
    · intro mem
      rcases List.mem_map.mp mem with ⟨t, inside, rfl⟩
      rcases List.mem_filter.mp inside with ⟨there, own⟩
      exact (mem_dropUnconfigured.mp there).2 own
    · intro mem
      rcases List.mem_map.mp mem with ⟨c, inside, rfl⟩
      rcases completed.present c inside with ⟨t, there, hit⟩
      rcases exists_of_mem_left updated.rows there with ⟨t', there', becomes⟩
      have hit' := hits_iff.mp ((becomes.hits c).trans hit)
      have own : t'.ownStatic env = true := by
        rw [(completed.ownStatic_of_updated free there becomes).1]
        exact ownStatic_iff.mpr ⟨(hits_iff.mp hit).1, completed.static free inside there hit⟩
      have kept : t' ∈ (out.dropUnconfigured env configs).recurringTasks.rows :=
        mem_dropUnconfigured.mpr ⟨there', fun _ => hit'.2 ▸ List.mem_map_of_mem inside⟩
      exact List.mem_map.mpr ⟨t', List.mem_filter.mpr ⟨kept, own⟩, hit'.2⟩
  · intro t' mem own
    rcases updated.origin mem own with ⟨t, -, -, c, inside, key, payload, now, column, rfl⟩
    exact ⟨c, inside, key, payload, column, redefine_definition⟩
  · intro t old own t' mem own' same
    rcases updated.origin mem own' with
      ⟨t'', there, becomes, c, -, -, payload, now, -, eq⟩
    have here : t'' = t := by
      apply List.inj_on_of_nodup_map completed.table.keys there
        (rows ▸ List.mem_append_left _ old)
      simp only [← becomes.keys.2.1, ← becomes.keys.2.2, same, (ownStatic_iff.mp own).1,
        (ownStatic_iff.mp own').1]
    subst here eq
    have schedule : (t''.redefine (c.desired (some payload)) now).schedule =
        (c.desired (some payload)).schedule :=
      congrArg RecurringDefinition.schedule redefine_definition
    rw [schedule]
    exact ⟨redefine_columns.1, redefine_columns.2.2.2⟩
  · intro t' mem own none
    rcases updated.origin mem own with ⟨t, there, becomes, c, -, -, payload, now, -, eq⟩
    rw [rows] at there
    rcases List.mem_append.mp there with old | here
    · have before := (completed.ownStatic_of_updated free
        (rows ▸ List.mem_append_left _ old) becomes).1
      exact absurd becomes.keys.2.2.symm (none t old (before ▸ own))
    · rcases made t here with ⟨⟨c', -, payload', now', id, -, rfl⟩, -⟩
      rw [eq, redefine_columns.2.2.2]
      exact ite_self _
  · have kept : (out.dropUnconfigured env configs).recurringTasks.rows.filter
        (fun t => !t.ownStatic env) =
          out.recurringTasks.rows.filter (fun t => !t.ownStatic env) := by
      apply Table.filter_deleteWhere
      intro t _ gone
      simp only [Bool.and_eq_true] at gone
      simp [RecurringTask.ownStatic, gone.1]
    have same : out.recurringTasks.rows.filter (fun t => !t.ownStatic env) =
        mid.recurringTasks.rows.filter (fun t => !t.ownStatic env) := by
      apply filter_eq_of_forall₂ updated.rows
      intro t mem t' becomes
      rcases completed.ownStatic_of_updated free mem becomes with ⟨agree, unowned⟩
      exact ⟨by rw [agree], fun other => unowned (by simpa using other)⟩
    have added : new.filter (fun t => !t.ownStatic env) = [] := by
      apply List.filter_eq_nil_iff.mpr
      intro t mem
      rcases made t mem with ⟨⟨c, -, payload, now, id, -, rfl⟩, -⟩
      simp [RecurringTask.ownStatic, RecurringDefinition.newTask, RecurringTaskConfig.desired]
    rw [kept, same, rows, List.filter_append, added, List.append_nil]

end Outcome

/-- No dynamic row in the way, the first loop passes. -/
theorem runs_ensureNoneDynamic (free : ¬w.db.TakenDynamically env configs) :
    Runs (configs.forM (ensureNotDynamic env)) w () w := by
  have loop := runs_forM (f := ensureNotDynamic env) (l := configs) (s := w)
    (fun rest s => s = w ∧ ∀ c ∈ rest, c ∈ configs)
    (fun c rest s ⟨same, inside⟩ => by
      refine ⟨w, ?_, rfl, fun c' mem => inside c' (List.mem_cons_of_mem _ mem)⟩
      rw [same]
      apply runs_ensureNotDynamic
      intro t mem hit
      by_contra dynamic
      exact free ⟨c, inside c List.mem_cons_self, t, mem, hit, Bool.not_eq_true _ ▸ dynamic⟩)
    ⟨rfl, fun c mem => mem⟩
  rcases loop with ⟨t, run, rfl, -⟩
  exact run

/-- The synchronization from its three loops. -/
theorem runs_upsertStaticRecurringTasks {w₁ w₂ : World} (valid : ValidConfigs env configs)
    (free : ¬w.db.TakenDynamically env configs)
    (created : Runs (configs.forM (createStaticRecurringTask env)) w () w₁)
    (updated : Runs (configs.forM (updateStaticRecurringTask env)) w₁ () w₂) :
    Runs (upsertStaticRecurringTasks env configs) w ()
      { w₂ with db := w₂.db.dropUnconfigured env configs } :=
  Runs.bind (runs_ofExcept valid.accepted _) (runs_atomic (Runs.bind (runs_ensureNoneDynamic free)
    (Runs.bind created (Runs.bind updated (runs_modifyDb _ _)))))

/-- Where the payloads come back, the table is reconciled. -/
theorem sync_reconciles (valid : ValidConfigs env configs) (table : TaskTable w.db.recurringTasks)
    (free : ¬w.db.TakenDynamically env configs)
    (back : ∀ c ∈ configs, c.payload.comesBack env.limits = true)
    (exact_ : ∀ c ∈ configs, ∀ t ∈ w.db.recurringTasks.rows, c.hits env t = true → c.Exact env t) :
    ∃ w', Runs (upsertStaticRecurringTasks env configs) w () w' ∧
      Reconciled env configs w.db w'.db := by
  rcases runs_createStaticRecurringTasks table back with ⟨w₁, created, completed⟩
  rcases runs_updateStaticRecurringTasks completed.table back
    (fun c inside t => completed.exact valid.keys exact_ inside) valid.keys completed.present with
    ⟨w₂, updates, updated⟩
  exact ⟨_, runs_upsertStaticRecurringTasks valid free created updates,
    reconciled_of_steps free valid.keys completed updated⟩

/-- A reconciled table has the row of every configured task, as configured. -/
theorem Reconciled.row {db db' : Db} (reconciled : Reconciled env configs db db')
    (distinct : (configs.map RecurringTaskConfig.key).Nodup) (inside : c ∈ configs) :
    ∃ t ∈ db'.recurringTasks.rows, c.hits env t = true ∧ t.static = true ∧
      ∃ payload, c.payload.column env.limits = .ok payload ∧
        t.definition = c.desired (some payload) := by
  have there := reconciled.keys.mem_iff.mpr (List.mem_map_of_mem inside)
  rcases List.mem_map.mp there with ⟨t, mem, key⟩
  rcases List.mem_filter.mp mem with ⟨row, own⟩
  rcases reconciled.configured t row own with ⟨c', inside', key', payload, column, definition⟩
  obtain rfl := List.inj_on_of_nodup_map distinct inside inside' (key.symm.trans key')
  have columns := ownStatic_iff.mp own
  exact ⟨t, row, hits_iff.mpr ⟨columns.1, key⟩, columns.2, payload, column, definition⟩

/-- A reconciled table has nothing to prune. -/
theorem dropUnconfigured_eq_self {db db' : Db} (reconciled : Reconciled env configs db db') :
    db'.dropUnconfigured env configs = db' := by
  have kept : db'.recurringTasks.deleteWhere (fun t =>
      t.backendAlias == env.config.backendAlias && t.static &&
        !(configs.map RecurringTaskConfig.key).contains t.key) = db'.recurringTasks := by
    apply Table.deleteWhere_eq_self
    intro t mem
    by_contra gone
    rw [Bool.not_eq_false, Bool.and_eq_true] at gone
    rcases reconciled.configured t mem gone.1 with ⟨c, inside, key, -⟩
    simp only [Bool.not_eq_true', List.contains_eq_mem, decide_eq_false_iff_not] at gone
    exact gone.2 (key ▸ List.mem_map_of_mem inside)
  exact congrArg db'.withTasks kept

/-- Syncing a reconciled table again changes nothing. -/
theorem sync_again {db : Db} (valid : ValidConfigs env configs)
    (back : ∀ c ∈ configs, c.payload.comesBack env.limits = true)
    (reconciled : Reconciled env configs db w.db) :
    ∃ w', Runs (upsertStaticRecurringTasks env configs) w () w' ∧ w'.db = w.db := by
  have free : ¬w.db.TakenDynamically env configs := by
    rintro ⟨c, inside, t, mem, hit, dynamic⟩
    rcases reconciled.row valid.keys inside with ⟨t', mem', hit', static, -⟩
    obtain rfl := reconciled.table.eq_of_hits mem mem' hit hit'
    rw [static] at dynamic
    cases dynamic
  have unchanged (f : RecurringTaskConfig → Op Unit)
      (ticks : ∀ c ∈ configs, ∀ s : World, s.db = w.db → Runs (f c) s () (s.ticked s.db))
      (s : World) (same : s.db = w.db) :
      ∃ t, Runs (configs.forM f) s () t ∧ t.db = w.db := by
    have loop := runs_forM (f := f) (l := configs) (s := s)
      (fun rest s => s.db = w.db ∧ ∀ c ∈ rest, c ∈ configs)
      (fun c rest s ⟨same, inside⟩ => ⟨s.ticked s.db, ticks c (inside c List.mem_cons_self) s same,
        same, fun c' mem => inside c' (List.mem_cons_of_mem _ mem)⟩)
      ⟨same, fun c mem => mem⟩
    rcases loop with ⟨t, run, same, -⟩
    exact ⟨t, run, same⟩
  have creates : ∃ w₁, Runs (configs.forM (createStaticRecurringTask env)) w () w₁ ∧
      w₁.db = w.db := by
    apply unchanged _ _ w rfl
    intro c inside s same
    rcases reconciled.row valid.keys inside with ⟨t, mem, hit, -⟩
    exact runs_createStaticRecurringTask_of_hits (same ▸ mem) hit
  rcases creates with ⟨w₁, created, same₁⟩
  have updates : ∃ w₂, Runs (configs.forM (updateStaticRecurringTask env)) w₁ () w₂ ∧
      w₂.db = w.db := by
    apply unchanged _ _ w₁ same₁
    intro c inside s same
    rcases reconciled.row valid.keys inside with ⟨t, mem, hit, -, payload, column, definition⟩
    rcases ConfiguredPayload.column_of_comesBack (back c inside) with ⟨payload', column', equal⟩
    cases column.symm.trans column'
    have own : t.payload = some payload := congrArg RecurringDefinition.payload definition
    exact runs_updateStaticRecurringTask_of_agrees (same ▸ reconciled.table) (same ▸ mem) hit
      ((agrees_iff column equal (exact_of_payload own column)).mpr definition)
  rcases updates with ⟨w₂, updated, same₂⟩
  refine ⟨_, runs_upsertStaticRecurringTasks valid free created updated, ?_⟩
  rw [same₂]
  exact dropUnconfigured_eq_self reconciled

/-! ## What any sync does to a row -/

/-- The clock of the session stands. -/
def World.Steady (w : World) (now : Time) : Prop := ∀ n, w.clock n = now

theorem of_run_ensureNotDynamic {u : Unit} (run : Runs (ensureNotDynamic env c) w u w') :
    w' = w := by
  rcases Runs.of_bind run with ⟨db, w₁, got, rest⟩
  rcases of_run_getDb got with ⟨-, rfl⟩
  rcases Runs.of_runIf rest with ⟨-, raised⟩ | ⟨-, rfl⟩
  · exact (Runs.of_throw raised).elim
  · rfl

/-- A step that creates a row or leaves the table. -/
theorem of_run_createStaticRecurringTask {u : Unit}
    (run : Runs (createStaticRecurringTask env c) w u w') :
    w' = w.ticked w.db ∨ (∀ t ∈ w.db.recurringTasks.rows, c.hits env t = false) ∧
      ∃ payload, w' = w.ticked (w.db.withTasks (w.db.recurringTasks.insert
        ((c.desired (some payload)).newTask env.config.backendAlias c.key (w.clock 0)))) := by
  rcases Runs.of_bind run with ⟨now, w₁, ticked, rest⟩
  cases ticked
  rcases Runs.of_bind rest with ⟨db, w₂, got, rest⟩
  cases got
  split at rest
  · rename_i absent
    rcases Runs.of_bind rest with ⟨payload, w₃, computed, written⟩
    rcases Runs.of_ofExcept computed with ⟨-, rfl⟩
    cases written
    exact .inr ⟨not_hits_of_find_none (Option.isNone_iff_eq_none.mp absent), payload, rfl⟩
  · cases rest
    exact .inl rfl

/-- A step that leaves the table, as the row agrees, or saves the row. -/
theorem of_run_updateStaticRecurringTask {u : Unit}
    (run : Runs (updateStaticRecurringTask env c) w u w') :
    (w' = w.ticked w.db ∧ ∀ t, w.db.findRecurringTask env.config.backendAlias c.key = some t →
        t.agrees c = true) ∨
      ∃ t payload, w.db.findRecurringTask env.config.backendAlias c.key = some t ∧
        t.savedPayload env.limits c = .ok payload ∧
        w' = w.ticked (w.db.withTasks (w.db.recurringTasks.updateWhere (c.hits env)
          (fun t => t.overwrite (c.desired payload) (w.clock 0)))) := by
  rcases Runs.of_bind run with ⟨now, w₁, ticked, rest⟩
  cases ticked
  rcases Runs.of_bind rest with ⟨db, w₂, got, rest⟩
  cases got
  cases found : w.db.findRecurringTask env.config.backendAlias c.key with
  | none =>
      rw [found] at rest
      cases rest
      exact .inl ⟨rfl, fun t other => nomatch other⟩
  | some t =>
      rw [found] at rest
      dsimp only at rest
      split at rest
      · rename_i agree
        cases rest
        exact .inl ⟨rfl, fun t' other => Option.some.inj other ▸ agree⟩
      · rcases Runs.of_bind rest with ⟨payload, w₃, computed, written⟩
        rcases Runs.of_ofExcept computed with ⟨saved, rfl⟩
        cases written
        exact .inr ⟨t, payload, rfl, saved, rfl⟩

/-- Overwriting keeps the table in order. -/
theorem TaskTable.overwrite {t : Table RecurringTask} (table : TaskTable t)
    (p : RecurringTask → Bool) (desired : RecurringDefinition) (now : Time) :
    TaskTable (t.updateWhere p (fun t => t.overwrite desired now)) := by
  have same : (t.updateWhere p (fun t => t.overwrite desired now)).rows.map
      (fun t => (t.backendAlias, t.key)) = t.rows.map (fun t => (t.backendAlias, t.key)) := by
    apply map_updateWhere
    exact fun _ => rfl
  refine ⟨table.ids.updateWhere (f := fun t => t.overwrite desired now) (fun _ => rfl) p, ?_⟩
  rw [same]
  exact table.keys

/-- Where a sync has got to with a row: it is as it was. -/
structure Waiting (t : RecurringTask) (now : Time) (w : World) : Prop where
  table : TaskTable w.db.recurringTasks
  mem : t ∈ w.db.recurringTasks.rows
  steady : w.Steady now

/-- The row has had its turn: `r` is it now, with an equal payload as it was, and saved unless it
agreed. -/
structure Treated (env : Env) (c : RecurringTaskConfig) (t : RecurringTask) (now : Time)
    (r : RecurringTask) (w : World) : Prop where
  here : Waiting r now w
  hit : c.hits env r = true
  payload : t.hasPayload c = true → r.payload = t.payload
  saved : t.agrees c = true ∨ r.updatedAt = now

section Row

variable {t r : RecurringTask} {now : Time}

/-- A row that waits for its update, through another's creation. -/
theorem Waiting.create {u : Unit} (waiting : Waiting t now w)
    (run : Runs (createStaticRecurringTask env c) w u w') : Waiting t now w' := by
  obtain ⟨table, mem, steady⟩ := waiting
  rcases of_run_createStaticRecurringTask run with rfl | ⟨absent, payload, rfl⟩
  · exact ⟨table, mem, fun n => steady (n + 1)⟩
  · refine ⟨table.insert rfl ?_, ?_, fun n => steady (n + 1)⟩
    · intro t' there same
      have hit := absent t' there
      rw [hits_iff.mpr (Prod.mk.inj same)] at hit
      cases hit
    · exact List.mem_append_left _ mem

/-- The turn of a task leaves the rows of the others. -/
theorem Waiting.update_other {u : Unit} (waiting : Waiting t now w) (miss : c.hits env t = false)
    (run : Runs (updateStaticRecurringTask env c) w u w') : Waiting t now w' := by
  obtain ⟨table, mem, steady⟩ := waiting
  rcases of_run_updateStaticRecurringTask run with ⟨rfl, -⟩ | ⟨t', payload, -, -, rfl⟩
  · exact ⟨table, mem, fun n => steady (n + 1)⟩
  · refine ⟨table.overwrite _ _ _, ?_, fun n => steady (n + 1)⟩
    exact List.mem_map.mpr ⟨t, mem, if_neg (by rw [miss]; exact Bool.false_ne_true)⟩

theorem Waiting.update {u : Unit} (waiting : Waiting t now w) (hit : c.hits env t = true)
    (run : Runs (updateStaticRecurringTask env c) w u w') : ∃ r, Treated env c t now r w' := by
  obtain ⟨table, mem, steady⟩ := waiting
  have row : w.db.findRecurringTask env.config.backendAlias c.key = some t := by
    rcases find_of_hits mem hit with ⟨t', found⟩
    rcases hits_of_find found with ⟨mem', hit'⟩
    rw [found, table.eq_of_hits mem mem' hit hit']
  rcases of_run_updateStaticRecurringTask run with ⟨rfl, agrees⟩ | ⟨t', payload, found, saved, rfl⟩
  · exact ⟨t, ⟨table, mem, fun n => steady (n + 1)⟩, hit, fun _ => rfl, .inl (agrees t row)⟩
  · cases found.symm.trans row
    refine ⟨t.overwrite (c.desired payload) (w.clock 0),
      ⟨table.overwrite _ _ _, ?_, fun n => steady (n + 1)⟩, hit, ?_, .inr (steady 0)⟩
    · exact List.mem_map.mpr ⟨t, mem, if_pos hit⟩
    · intro has
      rw [RecurringTask.savedPayload, if_pos has] at saved
      exact (Except.ok.inj saved).symm

/-- In a sync the row of a configured task has its turn once. -/
theorem treated_of_sync {u : Unit} (distinct : (configs.map RecurringTaskConfig.key).Nodup)
    (inside : c ∈ configs) (waiting : Waiting t now w) (hit : c.hits env t = true)
    (run : Runs (upsertStaticRecurringTasks env configs) w u w') :
    ∃ r, (∀ r' ∈ w'.db.recurringTasks.rows, c.hits env r' = true → r' = r) ∧
      (t.hasPayload c = true → r.payload = t.payload) ∧
        (t.agrees c = true ∨ r.updatedAt = now) := by
  rcases Runs.of_bind run with ⟨v, w₁, checked, rest⟩
  rcases Runs.of_ofExcept checked with ⟨-, rfl⟩
  rcases Runs.of_bind (Runs.of_atomic rest) with ⟨v₁, w₁, ensured, rest⟩
  rcases Runs.of_bind rest with ⟨v₂, w₂, created, rest⟩
  rcases Runs.of_bind rest with ⟨v₃, w₃, updated, deleted⟩
  have first : Waiting t now w₁ := Runs.forM (fun _ s => Waiting t now s)
    (fun _ _ _ _ _ before step => of_run_ensureNotDynamic step ▸ before) waiting ensured
  have second : Waiting t now w₂ := Runs.forM (fun _ s => Waiting t now s)
    (fun _ _ _ _ _ before step => before.create step) first created
  have third := Runs.forM (f := updateStaticRecurringTask env)
    (fun rest s => (∃ done, configs = done ++ rest) ∧
      ((c ∈ rest ∧ Waiting t now s) ∨ c ∉ rest ∧ ∃ r, Treated env c t now r s))
    (fun c' rest s u s' ⟨⟨done, split⟩, before⟩ step => by
      refine ⟨⟨done ++ [c'], by rw [split, List.append_assoc]; rfl⟩, ?_⟩
      rw [split, List.map_append, List.map_cons] at distinct
      have apart : c'.key ∉ rest.map RecurringTaskConfig.key :=
        (List.nodup_cons.mp (List.nodup_append.mp distinct).2.1).1
      have other (r : RecurringTask) (here : c.hits env r = true) (differ : c' ≠ c) :
          c'.hits env r = false := by
        by_contra both
        have key := (hits_iff.mp here).2.symm.trans (hits_iff.mp (Bool.not_eq_false _ ▸ both)).2
        rw [← List.map_cons, ← List.map_append, ← split] at distinct
        exact differ (List.inj_on_of_nodup_map distinct
          (split ▸ List.mem_append_right _ List.mem_cons_self) inside key.symm)
      rcases before with ⟨later, waits⟩ | ⟨gone, r, treated⟩
      · by_cases turn : c' = c
        · subst turn
          exact .inr ⟨fun again => apart (List.mem_map_of_mem again), waits.update hit step⟩
        · have there := (List.mem_cons.mp later).resolve_left (fun same => turn same.symm)
          exact .inl ⟨there, waits.update_other (other t hit turn) step⟩
      · have turn : c' ≠ c := fun same => gone (same ▸ List.mem_cons_self)
        exact .inr ⟨fun again => gone (List.mem_cons_of_mem _ again), r,
          treated.here.update_other (other r treated.hit turn) step, treated.hit, treated.payload,
          treated.saved⟩)
    ⟨⟨[], rfl⟩, .inl ⟨inside, second⟩⟩ updated
  rcases third.2 with ⟨none, -⟩ | ⟨-, r, treated⟩
  · exact absurd none List.not_mem_nil
  · cases deleted
    refine ⟨r, fun r' mem' hit' => ?_, treated.payload, treated.saved⟩
    exact treated.here.table.eq_of_hits (List.mem_of_mem_filter mem') treated.here.mem hit'
      treated.hit

end Row

/-! ## The result -/

/-- A dynamic row under a configured key ends the synchronization. -/
theorem refuses_dynamic (valid : ValidConfigs env configs) (table : TaskTable w.db.recurringTasks)
    (taken : w.db.TakenDynamically env configs) :
    ∃ message w', Raises (upsertStaticRecurringTasks env configs) w (.enqueueError message) w' ∧
      w'.db = w.db := by
  rcases fails_ensureNoneDynamic table taken with ⟨message, fails⟩
  rcases raises_transactionAtomic (x := applyStaticRecurringTasks env configs) fails.bind with
    ⟨w', raised, same⟩
  exact ⟨message, w', Runs.bind_raises (runs_ofExcept valid.accepted _) raised, same⟩

/-- What reconciling takes: the payload of a configured task comes back, and its row has no other
payload equal to it. -/
theorem comesBack_of_reconciles {db : Db} (valid : ValidConfigs env configs)
    (table : TaskTable db.recurringTasks) (free : ¬db.TakenDynamically env configs)
    (reconciles : ∀ clock uuids, SyncReconciles env configs ⟨db, clock, uuids⟩)
    (inside : c ∈ configs) : c.payload.comesBack env.limits = true ∧
      ∀ t ∈ db.recurringTasks.rows, c.hits env t = true → c.Exact env t := by
  rcases (reconciles (fun _ => 0) (fun _ => 0)).reconciles free with ⟨w', run, reconciled, again⟩
  rcases reconciled.row valid.keys inside with ⟨t', mem', hit', -, payload, column, definition⟩
  have own : t'.payload = some payload := congrArg RecurringDefinition.payload definition
  constructor
  · -- were the row saved by the second sync, its time would have changed
    rcases again (fun _ => t'.updatedAt + 1) (fun _ => 0) with ⟨w'', run', same⟩
    have waiting : Waiting t' (t'.updatedAt + 1)
        ⟨w'.db, fun _ => t'.updatedAt + 1, fun _ => 0⟩ :=
      ⟨reconciled.table, mem', fun _ => rfl⟩
    rcases treated_of_sync valid.keys inside waiting hit' run' with ⟨r, only, -, saved⟩
    have here : t' = r := only t' (same ▸ mem') hit'
    have agrees := saved.resolve_right (here ▸ Int.ne_of_lt (Int.lt_succ _))
    rw [RecurringTask.agrees, Bool.and_eq_true, RecurringTask.hasPayload, own] at agrees
    rw [ConfiguredPayload.comesBack, column]
    exact agrees.1
  · intro t mem hit has
    have waiting : Waiting t 0 ⟨db, fun _ => 0, fun _ => 0⟩ := ⟨table, mem, fun _ => rfl⟩
    rcases treated_of_sync valid.keys inside waiting hit run with ⟨r, only, kept, -⟩
    have here : t' = r := only t' mem' hit'
    rw [← kept has, ← here, own, column]
    rfl

end Sync

/-! ## A task of every minute -/

/-- A process whose tasks can all be imported. -/
def syncingEnv : Env where
  config := { family := .sqlite }
  importString path := .ok (.task ⟨path, "default", 0, none, none, none, none⟩)
  concurrencyKey _ _ := .unset
  cron := crontab Crontab.plainPlatform

/-- A config that runs every minute. -/
def everyMinute (key : String) (args : List Payloads.PyObject) : RecurringTaskConfig where
  key := key
  taskPath := "app.tasks.report"
  schedule := "* * * * *"
  payload := ⟨args, []⟩
  queueName := "default"
  priority := 0
  description := ""

/-- The row of such a task. -/
def everyMinuteRow (id : Nat) (key : String) (args : List Json.Document) : RecurringTask :=
  ((everyMinute key []).desired (some ⟨args, []⟩)).newTask "default" key 0 id

/-- Four configs: one as stored, one edited, one moved here from another schedule, one new. -/
def syncedConfigs : List RecurringTaskConfig :=
  [everyMinute "same" [.list [.str "north", .int 3]], everyMinute "edited" [.int 1],
    everyMinute "moved" [], everyMinute "new" [.bool true]]

/-- A task as configured, one with other arguments, one with another schedule, one that is no
longer configured, a dynamic one, and another backend's of a configured key. -/
def syncedDb : Db := { Db.empty with
  recurringTasks := ⟨[
    { everyMinuteRow 1 "same" [.array [.scalar (.str "north"), .scalar (.int 3)]] with
      nextRunAt := some 60 },
    { everyMinuteRow 2 "edited" [.scalar (.int 2)] with nextRunAt := some 60 },
    { everyMinuteRow 3 "moved" [] with schedule := "0 * * * *", nextRunAt := some 3600 },
    everyMinuteRow 4 "gone" [],
    { everyMinuteRow 5 "dynamic" [] with static := false },
    { everyMinuteRow 6 "new" [] with backendAlias := "other" }], 7⟩ }

/-- Configs accepted with distinct keys are valid. -/
theorem validConfigs_of_isOk {configs : List RecurringTaskConfig}
    (accepted : (validateRecurringConfigs syncingEnv configs).isOk = true)
    (distinct : (configs.map RecurringTaskConfig.key).Nodup) : ValidConfigs syncingEnv configs where
  accepted := Crontab.ok_of_isOk () accepted
  keys := distinct

/-- A row with `True` is left alone under a configuration with `1`. -/
example : ¬(everyMinute "report" [.int 1]).Exact syncingEnv
    (everyMinuteRow 1 "report" [.scalar (.bool true)]) := by
  unfold RecurringTaskConfig.Exact
  decide +kernel

theorem taskTable_empty : TaskTable Db.empty.recurringTasks where
  ids := ⟨List.nodup_nil, fun _ mem => absurd mem List.not_mem_nil⟩
  keys := List.nodup_nil

end DjQueue
