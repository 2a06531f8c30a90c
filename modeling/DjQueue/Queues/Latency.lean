import DjQueue.Accounting.Audits
import DjQueue.Calendar.Pauses

/-!
# Latency

`reads/queues.py` reports how long the oldest ready row of a queue has waited, and
`resume_queue` moves the origin of every ready row so that the pause does not count.  A row that
waited before the pause moves by its length, one that came during it starts when the pause ends.
The result is that these moves compose over any history: the wait of a row at a time when the queue
is not paused is the time since it became ready without the pauses since.
-/

namespace DjQueue

open Relational

/-! ## The reads -/

/-- `Coalesce("latency_started_at", "created_at")` -/
def ReadyExecution.origin (r : ReadyExecution) : Time := r.latencyStartedAt.getD r.createdAt

/-- `_ready_rows` -/
def Db.readyRows (db : Db) (backendAlias queueName : String) : List ReadyExecution :=
  db.ready.rows.filter (fun r => r.backendAlias == backendAlias && r.queueName == queueName)

/-- `oldest_ready_at_for_queue`; there is no least of no rows. -/
def oldestReadyAtForQueue (db : Db) (backendAlias queueName : String) : Option Time :=
  ((db.readyRows backendAlias queueName).map ReadyExecution.origin).min?

/-- `queue_latency_seconds`, in microseconds.  `paused` and `oldestReadyAt` are read when they are
not provided. -/
def queueLatencySeconds (backendAlias queueName : String) (now : Option Time)
    (paused : Option Bool) (oldestReadyAt : Option (Option Time)) : Op (Option Time) := do
  let read ← timezoneNow
  let db ← getDb
  if paused.getD (isPaused db backendAlias queueName) then pure none
  else
    let oldest := oldestReadyAt.getD (oldestReadyAtForQueue db backendAlias queueName)
    pure (oldest.map (fun at' => max (now.getD read - at') 0))

/-! ## What pausing and resuming do -/

/-- The pauses of a queue: at most one, in all that follows. -/
def Db.pausesOf (db : Db) (backendAlias queueName : String) : List Pause :=
  db.pauses.rows.filter (fun p => p.backendAlias == backendAlias && p.queueName == queueName)

section Calls

variable {env : Env} {queueName : String} {w : World}

/-- A queue is paused when it has a pause row. -/
theorem isPaused_iff {db : Db} {backendAlias : String} :
    isPaused db backendAlias queueName = true ↔ db.pausesOf backendAlias queueName ≠ [] := by
  unfold isPaused Db.pausesOf
  rw [List.any_eq_true, Ne, List.filter_eq_nil_iff]
  push Not
  rfl

theorem isPaused_of_nil {db : Db} {backendAlias : String}
    (none : db.pausesOf backendAlias queueName = []) :
    isPaused db backendAlias queueName = false := by
  rw [← Bool.not_eq_true, isPaused_iff, none]
  exact fun some => some rfl

/-- The pause rows after a call of `pause_queue`. -/
def Db.pausedAt (db : Db) (env : Env) (queueName : String) (now : Time) : Db :=
  if isPaused db env.config.backendAlias queueName then db
  else { db with
    pauses := db.pauses.insert (fun id => ⟨id, env.config.backendAlias, queueName, now⟩) }

/-- The session after it has read the clock. -/
theorem runs_createPause : Runs (createPause env queueName) w ()
    ⟨w.db.pausedAt env queueName (w.clock 0), fun n => w.clock (n + 1), w.uuids⟩ := by
  refine runs_atomic (Runs.bind (runs_timezoneNow w) (Runs.bind (runs_getDb _) ?_))
  unfold Db.pausedAt
  cases isPaused w.db env.config.backendAlias queueName with
  | true => rfl
  | false => rfl

/-- Locking the ready rows reads only. -/
theorem runs_lockReadyRows : ∃ ids, Runs (lockReadyRows env queueName) w ids w := ⟨_, rfl⟩

/-- `pause_queue` leaves the pause of the clock's first reading, or the one there is. -/
theorem db_pauseQueue : (finalState (pauseQueue env queueName) w).db =
    w.db.pausedAt env queueName (w.clock 0) := by
  have locking : ∃ ids, Runs (lockReadyRows env queueName)
      ⟨w.db.pausedAt env queueName (w.clock 0), fun n => w.clock (n + 1), w.uuids⟩ ids
      ⟨w.db.pausedAt env queueName (w.clock 0), fun n => w.clock (n + 1), w.uuids⟩ :=
    runs_lockReadyRows
  rcases locking with ⟨ids, locked⟩
  have run : Runs (pauseQueue env queueName) w ()
      ⟨w.db.pausedAt env queueName (w.clock 0), fun n => w.clock (n + 1), w.uuids⟩ :=
    Runs.bind runs_createPause (Runs.bind locked (runs_pure _ _))
  rw [run.finalState_eq]

/-- The rows of the queue, and its pause, after a resume at this time. -/
def Db.resumedAt (db : Db) (env : Env) (queueName : String) (pause : Pause) (now : Time) : Db :=
  { db with
    ready := db.ready.updateWhere
      (fun r => r.backendAlias == env.config.backendAlias && r.queueName == queueName)
      (fun r => { r with latencyStartedAt := some (resumedLatency pause.createdAt now r) })
    pauses := db.pauses.deleteWhere (fun p => p.id == pause.id) }

/-- The row `resume_queue` looks for is the first pause of the queue. -/
theorem find_pause (db : Db) (backendAlias : String) : db.pauses.rows.find? (fun p =>
    p.backendAlias == backendAlias && p.queueName == queueName) =
      (db.pausesOf backendAlias queueName).head? :=
  List.head?_filter.symm

/-- Resuming a queue that is not paused changes nothing. -/
theorem db_resumeQueue_of_none (resumedAt : Option Time)
    (none : w.db.pausesOf env.config.backendAlias queueName = []) :
    (finalState (resumeQueue env queueName resumedAt) w).db = w.db := by
  have run : Runs (resumeQueue env queueName resumedAt) w false
      ⟨w.db, fun n => w.clock (n + 1), w.uuids⟩ := by
    refine runs_atomic (Runs.bind (runs_getDb w) (Runs.bind (runs_timezoneNow _) ?_))
    rw [find_pause, none]
    exact runs_pure _ _
  rw [run.finalState_eq]

/-- Resuming deletes the pause and moves the origins of the queue's rows. -/
theorem db_resumeQueue_of_pause (resumedAt : Option Time) {pause : Pause}
    (only : w.db.pausesOf env.config.backendAlias queueName = [pause]) :
    (finalState (resumeQueue env queueName resumedAt) w).db =
      w.db.resumedAt env queueName pause (resumedAt.getD (w.clock 0)) := by
  have run : Runs (resumeQueue env queueName resumedAt) w true
      ⟨w.db.resumedAt env queueName pause (resumedAt.getD (w.clock 0)),
        fun n => w.clock (n + 1), w.uuids⟩ := by
    refine runs_atomic (Runs.bind (runs_getDb w) (Runs.bind (runs_timezoneNow _) ?_))
    rw [find_pause, only]
    exact Runs.bind (runs_modifyDb _ _) (runs_pure _ _)
  rw [run.finalState_eq]

/-- Pausing a paused queue changes nothing. -/
theorem pausesOf_pausedAt_of_paused {db : Db} {now : Time}
    (some : db.pausesOf env.config.backendAlias queueName ≠ []) :
    db.pausedAt env queueName now = db :=
  if_pos (isPaused_iff.mpr some)

/-- Pausing a queue that is not paused leaves one pause row. -/
theorem pausesOf_pausedAt_of_none {db : Db}
    (none : db.pausesOf env.config.backendAlias queueName = []) (now : Time) :
    (db.pausedAt env queueName now).pausesOf env.config.backendAlias queueName =
      [⟨db.pauses.nextId, env.config.backendAlias, queueName, now⟩] ∧
    (db.pausedAt env queueName now).ready = db.ready := by
  unfold Db.pausedAt
  rw [isPaused_of_nil none, if_neg Bool.false_ne_true]
  refine ⟨?_, rfl⟩
  simp only [Db.pausesOf, Table.rows_insert, List.filter_append] at none ⊢
  rw [none]
  simp

theorem pausesOf_resumedAt {db : Db} {pause : Pause} {now : Time}
    (only : db.pausesOf env.config.backendAlias queueName = [pause]) :
    (db.resumedAt env queueName pause now).pausesOf env.config.backendAlias queueName = [] := by
  unfold Db.resumedAt
  simp only [Db.pausesOf, Table.rows_deleteWhere] at only ⊢
  rw [List.filter_comm, only]
  simp

/-- The new origin of a row is the old one moved by the part of the pause it waited through. -/
theorem resumedLatency_eq (pausedAt now : Time) (r : ReadyExecution) :
    resumedLatency pausedAt now r = Pauses.movedOrigin pausedAt now r.origin := by
  unfold resumedLatency ReadyExecution.origin
  cases r.latencyStartedAt <;> rfl

/-- A resumed row is the row before with its origin moved. -/
theorem mem_readyRows_resumedAt {db : Db} {pause : Pause} {now : Time} {r' : ReadyExecution}
    (mem : r' ∈ (db.resumedAt env queueName pause now).readyRows env.config.backendAlias
      queueName) :
    ∃ r ∈ db.readyRows env.config.backendAlias queueName,
      r'.id = r.id ∧ r'.origin = Pauses.movedOrigin pause.createdAt now r.origin := by
  rcases List.mem_filter.mp mem with ⟨inside, own⟩
  rcases List.mem_map.mp inside with ⟨r, there, rfl⟩
  by_cases hit : (r.backendAlias == env.config.backendAlias && r.queueName == queueName) = true
  · refine ⟨r, List.mem_filter.mpr ⟨there, hit⟩, ?_⟩
    rw [if_pos hit]
    exact ⟨rfl, resumedLatency_eq pause.createdAt now r⟩
  · rw [if_neg hit] at own
    exact absurd own hit

end Calls

/-! ## Histories -/

/-- A moment in the history of a queue: besides the tables, when the pause under way was asked for,
which pauses are over, and when each row became ready. -/
structure QueueMoment where
  db : Db
  now : Time
  pausedSince : Option Time
  pauses : List (Time × Time)
  readyAt : Nat → Time

/-- The clock of a session, read between two times. -/
def ReadBetween (clock : Nat → Time) (start stop : Time) : Prop :=
  ∀ n, start ≤ clock n ∧ clock n ≤ stop

section Histories

variable (env : Env) (queueName : String)

/-- The queue is paused or resumed, a row becomes ready or leaves, or something else happens.  The
time a row becomes ready is the one it is created with. -/
inductive QueueStep : QueueMoment → QueueMoment → Prop
  | pauseQueue (m : QueueMoment) (clock : Nat → Time) (uuids : Nat → JobId) (now : Time)
      (monotone : ReadBetween clock m.now now) :
      QueueStep m { m with
        db := (finalState (pauseQueue env queueName) ⟨m.db, clock, uuids⟩).db
        now := now
        pausedSince := m.pausedSince.or (some (clock 0)) }
  | resumeQueue (m : QueueMoment) (clock : Nat → Time) (uuids : Nat → JobId) (now : Time)
      (resumedAt : Option Time) (monotone : ReadBetween clock m.now now)
      (given : ∀ t, resumedAt = some t → m.now ≤ t ∧ t ≤ now) :
      QueueStep m { m with
        db := (finalState (resumeQueue env queueName resumedAt) ⟨m.db, clock, uuids⟩).db
        now := now
        pausedSince := none
        pauses := (m.pausedSince.map (fun since => (since, resumedAt.getD (clock 0)))).toList ++
          m.pauses }
  | readied (m : QueueMoment) (row : ReadyExecution) (now : Time)
      (created : m.now ≤ row.createdAt ∧ row.createdAt ≤ now)
      (started : ∀ t, row.latencyStartedAt = some t → m.now ≤ t ∧ t ≤ now) :
      QueueStep m { m with
        db := { m.db with ready := m.db.ready.insert (fun id => { row with id := id }) }
        now := now
        readyAt := Function.update m.readyAt m.db.ready.nextId row.origin }
  | left (m : QueueMoment) (gone : ReadyExecution → Bool) (now : Time) (later : m.now ≤ now) :
      QueueStep m { m with
        db := { m.db with ready := m.db.ready.deleteWhere gone }
        now := now }
  | elsewhere (m : QueueMoment) (db' : Db) (now : Time) (later : m.now ≤ now)
      (rows : db'.readyRows env.config.backendAlias queueName =
        m.db.readyRows env.config.backendAlias queueName)
      (pauses : db'.pausesOf env.config.backendAlias queueName =
        m.db.pausesOf env.config.backendAlias queueName)
      (next : m.db.ready.nextId ≤ db'.ready.nextId) :
      QueueStep m { m with db := db', now := now }

/-- Before the history the queue is empty and not paused. -/
structure QueueMoment.Starts (m : QueueMoment) : Prop where
  rows : m.db.readyRows env.config.backendAlias queueName = []
  unpaused : m.db.pausesOf env.config.backendAlias queueName = []
  since : m.pausedSince = none
  pauses : m.pauses = []

/-- How long a row has waited, without the pauses. -/
def QueueMoment.waited (m : QueueMoment) (t : Time) (r : ReadyExecution) : Time :=
  (t - m.readyAt r.id) - Pauses.pausedTime m.pauses (m.readyAt r.id)

/-- The tables agree with the history: the origin of a row is the time it became ready and the
pauses since. -/
structure QueueMoment.Recorded (m : QueueMoment) : Prop where
  successive : Pauses.Successive m.pauses (m.pausedSince.getD m.now)
  underWay : ∀ since, m.pausedSince = some since → since ≤ m.now
  pauses : (m.db.pausesOf env.config.backendAlias queueName).map Pause.createdAt =
    m.pausedSince.toList
  bound : ∀ r ∈ m.db.readyRows env.config.backendAlias queueName, r.id < m.db.ready.nextId
  ready : ∀ r ∈ m.db.readyRows env.config.backendAlias queueName, m.readyAt r.id ≤ m.now
  origin : ∀ r ∈ m.db.readyRows env.config.backendAlias queueName,
    r.origin = m.readyAt r.id + Pauses.pausedTime m.pauses (m.readyAt r.id)

variable {env : Env} {queueName : String} {m m' : QueueMoment}

theorem QueueMoment.Starts.recorded (starts : m.Starts env queueName) :
    m.Recorded env queueName where
  successive := by rw [starts.pauses]; trivial
  underWay since here := by rw [starts.since] at here; cases here
  pauses := by rw [starts.unpaused, starts.since]; rfl
  bound r mem := by rw [starts.rows] at mem; cases mem
  ready r mem := by rw [starts.rows] at mem; cases mem
  origin r mem := by rw [starts.rows] at mem; cases mem

namespace QueueMoment.Recorded

variable (recorded : m.Recorded env queueName)
include recorded

/-- All pauses that are over were over by now. -/
theorem over_by_now : Pauses.Successive m.pauses m.now := by
  have successive := recorded.successive
  cases since : m.pausedSince with
  | none =>
      rw [since] at successive
      exact successive
  | some t =>
      rw [since] at successive
      exact successive.mono (recorded.underWay t since)

/-- No row's origin is later than now. -/
theorem origin_le {r : ReadyExecution}
    (mem : r ∈ m.db.readyRows env.config.backendAlias queueName) : r.origin ≤ m.now := by
  rw [recorded.origin r mem]
  exact Pauses.since_add_pausedTime_le recorded.over_by_now (recorded.ready r mem)

/-- A call of `pause_queue` on a paused queue changes nothing. -/
theorem pauseQueue {clock : Nat → Time} {now : Time} (uuids : Nat → JobId)
    (monotone : ReadBetween clock m.now now) :
    Recorded env queueName { m with
      db := (finalState (DjQueue.pauseQueue env queueName) ⟨m.db, clock, uuids⟩).db
      now := now
      pausedSince := m.pausedSince.or (some (clock 0)) } := by
  have later : m.now ≤ now := le_trans (monotone 0).1 (monotone 0).2
  rw [db_pauseQueue]
  cases since : m.pausedSince with
  | some t =>
      have pauses := recorded.pauses
      have successive := recorded.successive
      rw [since] at pauses successive
      have paused : m.db.pausesOf env.config.backendAlias queueName ≠ [] := by
        intro none
        rw [none] at pauses
        cases pauses
      rw [pausesOf_pausedAt_of_paused paused]
      exact {
        successive := successive
        underWay := fun t' here => le_trans (recorded.underWay t' (since.trans here)) later
        pauses := pauses
        bound := recorded.bound
        ready := fun r mem => le_trans (recorded.ready r mem) later
        origin := recorded.origin }
  | none =>
      have pauses := recorded.pauses
      have successive := recorded.successive
      rw [since] at pauses successive
      have unpaused : m.db.pausesOf env.config.backendAlias queueName = [] :=
        List.map_eq_nil_iff.mp pauses
      rcases pausesOf_pausedAt_of_none unpaused (clock 0) with ⟨row, same⟩
      have rows : (m.db.pausedAt env queueName (clock 0)).readyRows env.config.backendAlias
          queueName = m.db.readyRows env.config.backendAlias queueName := by
        rw [Db.readyRows, same, Db.readyRows]
      exact {
        successive := successive.mono (monotone 0).1
        underWay := fun t' here => Option.some.inj here ▸ (monotone 0).2
        pauses := by
          rw [row]
          rfl
        bound := fun r mem => by
          rw [same]
          exact recorded.bound r (rows ▸ mem)
        ready := fun r mem => le_trans (recorded.ready r (rows ▸ mem)) later
        origin := fun r mem => recorded.origin r (rows ▸ mem) }

/-- `resume_queue` keeps the record, also with a `resumed_at` of its caller. -/
theorem resumeQueue {clock : Nat → Time} {now : Time} (uuids : Nat → JobId)
    (resumedAt : Option Time) (monotone : ReadBetween clock m.now now)
    (given : ∀ t, resumedAt = some t → m.now ≤ t ∧ t ≤ now) :
    Recorded env queueName { m with
      db := (finalState (DjQueue.resumeQueue env queueName resumedAt) ⟨m.db, clock, uuids⟩).db
      now := now
      pausedSince := none
      pauses := (m.pausedSince.map (fun since => (since, resumedAt.getD (clock 0)))).toList ++
        m.pauses } := by
  have read : m.now ≤ resumedAt.getD (clock 0) ∧ resumedAt.getD (clock 0) ≤ now := by
    cases resumedAt with
    | none => exact monotone 0
    | some t => exact given t rfl
  have later : m.now ≤ now := le_trans read.1 read.2
  cases since : m.pausedSince with
  | none =>
      have pauses := recorded.pauses
      rw [since] at pauses
      have unpaused : m.db.pausesOf env.config.backendAlias queueName = [] :=
        List.map_eq_nil_iff.mp pauses
      rw [db_resumeQueue_of_none resumedAt unpaused]
      exact {
        successive := recorded.over_by_now.mono later
        underWay := nofun
        pauses := pauses
        bound := recorded.bound
        ready := fun r mem => le_trans (recorded.ready r mem) later
        origin := recorded.origin }
  | some t =>
      have pauses := recorded.pauses
      have successive := recorded.successive
      rw [since] at pauses successive
      rcases List.map_eq_singleton_iff.mp pauses with ⟨pause, only, createdAt⟩
      rw [db_resumeQueue_of_pause resumedAt only]
      have lasts : t ≤ resumedAt.getD (clock 0) := le_trans (recorded.underWay t since) read.1
      exact {
        successive := ⟨lasts, read.2, successive⟩
        underWay := nofun
        pauses := by
          rw [pausesOf_resumedAt only]
          rfl
        bound := fun r' mem => by
          rcases mem_readyRows_resumedAt mem with ⟨r, there, id, -⟩
          rw [id]
          exact recorded.bound r there
        ready := fun r' mem => by
          rcases mem_readyRows_resumedAt mem with ⟨r, there, id, -⟩
          rw [id]
          exact le_trans (recorded.ready r there) later
        origin := fun r' mem => by
          rcases mem_readyRows_resumedAt mem with ⟨r, there, id, moved⟩
          rw [moved, id, createdAt, recorded.origin r there]
          exact Pauses.movedOrigin_eq successive lasts (le_trans (recorded.ready r there) read.1) }

/-- A row made ready keeps the record. -/
theorem readied {row : ReadyExecution} {now : Time}
    (created : m.now ≤ row.createdAt ∧ row.createdAt ≤ now)
    (started : ∀ t, row.latencyStartedAt = some t → m.now ≤ t ∧ t ≤ now) :
    Recorded env queueName { m with
      db := { m.db with ready := m.db.ready.insert (fun id => { row with id := id }) }
      now := now
      readyAt := Function.update m.readyAt m.db.ready.nextId row.origin } := by
  have began : m.now ≤ row.origin ∧ row.origin ≤ now := by
    unfold ReadyExecution.origin
    cases latency : row.latencyStartedAt with
    | none => exact created
    | some t => exact started t latency
  have later : m.now ≤ now := le_trans began.1 began.2
  have each : ∀ r ∈ { m.db with ready := m.db.ready.insert (fun id => { row with id := id })
      }.readyRows env.config.backendAlias queueName,
      r ∈ m.db.readyRows env.config.backendAlias queueName ∨
        r = { row with id := m.db.ready.nextId } := by
    intro r mem
    rcases List.mem_filter.mp mem with ⟨inside, own⟩
    rcases List.mem_append.mp inside with old | new
    · exact .inl (List.mem_filter.mpr ⟨old, own⟩)
    · exact .inr (List.mem_singleton.mp new)
  have kept : ∀ r ∈ m.db.readyRows env.config.backendAlias queueName,
      Function.update m.readyAt m.db.ready.nextId row.origin r.id = m.readyAt r.id :=
    fun r mem => Function.update_of_ne (Nat.ne_of_lt (recorded.bound r mem)) _ _
  have fresh : Function.update m.readyAt m.db.ready.nextId row.origin m.db.ready.nextId =
      row.origin := Function.update_self _ _ _
  refine {
    successive := ?_
    underWay := fun t here => le_trans (recorded.underWay t here) later
    pauses := recorded.pauses
    bound := fun r mem => ?_
    ready := fun r mem => ?_
    origin := fun r mem => ?_ }
  · cases since : m.pausedSince with
    | none => exact recorded.over_by_now.mono later
    | some t =>
        have successive := recorded.successive
        rw [since] at successive
        exact successive
  · rcases each r mem with old | rfl
    · exact Nat.lt_succ_of_lt (recorded.bound r old)
    · exact Nat.lt_succ_self _
  · rcases each r mem with old | rfl
    · exact (kept r old).trans_le (le_trans (recorded.ready r old) later)
    · exact fresh.trans_le began.2
  · rcases each r mem with old | rfl
    · change r.origin = Function.update m.readyAt m.db.ready.nextId row.origin r.id +
        Pauses.pausedTime m.pauses (Function.update m.readyAt m.db.ready.nextId row.origin r.id)
      rw [kept r old]
      exact recorded.origin r old
    · change row.origin = Function.update m.readyAt m.db.ready.nextId row.origin m.db.ready.nextId +
        Pauses.pausedTime m.pauses
          (Function.update m.readyAt m.db.ready.nextId row.origin m.db.ready.nextId)
      rw [fresh, Pauses.pausedTime_eq_zero recorded.over_by_now began.1]
      exact (Int.add_zero _).symm

/-- Whatever keeps the pauses and adds no ready row. -/
theorem fewer {db' : Db} {now : Time} (later : m.now ≤ now)
    (rows : ∀ r ∈ db'.readyRows env.config.backendAlias queueName,
      r ∈ m.db.readyRows env.config.backendAlias queueName)
    (pauses : db'.pausesOf env.config.backendAlias queueName =
      m.db.pausesOf env.config.backendAlias queueName)
    (next : m.db.ready.nextId ≤ db'.ready.nextId) :
    Recorded env queueName { m with db := db', now := now } where
  successive := by
    cases since : m.pausedSince with
    | none => exact recorded.over_by_now.mono later
    | some t =>
        have successive := recorded.successive
        rw [since] at successive
        exact successive
  underWay t here := le_trans (recorded.underWay t here) later
  pauses := pauses ▸ recorded.pauses
  bound r mem := Nat.lt_of_lt_of_le (recorded.bound r (rows r mem)) next
  ready r mem := le_trans (recorded.ready r (rows r mem)) later
  origin r mem := recorded.origin r (rows r mem)

theorem step (step : QueueStep env queueName m m') : m'.Recorded env queueName := by
  cases step with
  | pauseQueue clock uuids now monotone => exact recorded.pauseQueue uuids monotone
  | resumeQueue clock uuids now resumedAt monotone given =>
      exact recorded.resumeQueue uuids resumedAt monotone given
  | readied row now created started => exact recorded.readied created started
  | left gone now later =>
      have rows : ∀ r ∈ { m.db with ready := m.db.ready.deleteWhere gone }.readyRows
          env.config.backendAlias queueName,
          r ∈ m.db.readyRows env.config.backendAlias queueName := by
        intro r mem
        rcases List.mem_filter.mp mem with ⟨inside, own⟩
        exact List.mem_filter.mpr ⟨List.mem_of_mem_filter inside, own⟩
      exact recorded.fewer later rows rfl le_rfl
  | elsewhere db' now later rows pauses next =>
      exact recorded.fewer later (fun r mem => rows ▸ mem) pauses next

/-- What a row waits by its origin is what it waited outside the pauses. -/
theorem waited_eq {r : ReadyExecution}
    (mem : r ∈ m.db.readyRows env.config.backendAlias queueName) (t : Time) :
    t - r.origin = m.waited t r := by
  rw [recorded.origin r mem, QueueMoment.waited]
  exact Int.sub_sub _ _ _ |>.symm

end QueueMoment.Recorded

/-- The record holds after every history. -/
theorem recorded_of_history (starts : m.Starts env queueName)
    (history : Relation.ReflTransGen (QueueStep env queueName) m m') :
    m'.Recorded env queueName := by
  induction history with
  | refl => exact starts.recorded
  | tail _ step ih => exact ih.step step

/-! ## The latency of a queue -/

/-- The oldest origin is the longest wait. -/
theorem max?_sub (t : Int) (origins : List Int) :
    (origins.map (fun origin => t - origin)).max? = origins.min?.map (fun origin => t - origin) := by
  cases least : origins.min? with
  | none =>
      rw [List.min?_eq_none_iff.mp least]
      rfl
  | some origin =>
      rw [List.min?_eq_some_iff] at least
      rw [Option.map_some, List.max?_eq_some_iff]
      refine ⟨List.mem_map_of_mem least.1, ?_⟩
      intro waited mem
      rcases List.mem_map.mp mem with ⟨origin', inside, rfl⟩
      exact Int.sub_le_sub_left (least.2 origin' inside) t

/-- While the queue is not paused, every ready row has waited since it became ready without the
pauses since, and the latency of the queue is the longest of these waits. -/
theorem latency_excludes_paused_time (env : Env) (queueName : String) {start m : QueueMoment}
    (starts : start.Starts env queueName)
    (history : Relation.ReflTransGen (QueueStep env queueName) start m)
    (unpaused : m.pausedSince = none) (t : Time) (later : m.now ≤ t) :
    (∀ r ∈ m.db.readyRows env.config.backendAlias queueName, t - r.origin =
      (t - m.readyAt r.id) - Pauses.pausedTime m.pauses (m.readyAt r.id)) ∧
    ∀ clock uuids, returned (queueLatencySeconds env.config.backendAlias queueName (some t) none
      none) ⟨m.db, clock, uuids⟩ =
        some ((m.db.readyRows env.config.backendAlias queueName).map (m.waited t)).max? := by
  have recorded := recorded_of_history starts history
  refine ⟨fun r mem => recorded.waited_eq mem t, fun clock uuids => ?_⟩
  have noPause : m.db.pausesOf env.config.backendAlias queueName = [] := by
    have pauses := recorded.pauses
    rw [unpaused] at pauses
    exact List.map_eq_nil_iff.mp pauses
  have run : Runs (queueLatencySeconds env.config.backendAlias queueName (some t) none none)
      ⟨m.db, clock, uuids⟩
      ((oldestReadyAtForQueue m.db env.config.backendAlias queueName).map
        (fun at' => max (t - at') 0)) ⟨m.db, fun n => clock (n + 1), uuids⟩ := by
    refine Runs.bind (runs_timezoneNow _) (Runs.bind (runs_getDb _) ?_)
    rw [Option.getD_none, isPaused_of_nil noPause]
    exact runs_pure _ _
  have waits : (m.db.readyRows env.config.backendAlias queueName).map (m.waited t) =
      ((m.db.readyRows env.config.backendAlias queueName).map ReadyExecution.origin).map
        (fun origin => t - origin) := by
    rw [List.map_map]
    exact List.map_congr_left fun r mem => (recorded.waited_eq mem t).symm
  rw [run.returned_eq, waits, max?_sub, oldestReadyAtForQueue]
  congr 1
  apply Option.map_congr
  intro origin least
  rcases List.mem_map.mp (List.min?_mem least) with ⟨r, mem, rfl⟩
  exact max_eq_left (Int.sub_nonneg_of_le (le_trans (recorded.origin_le mem) later))

end Histories

/-! ## A row that waits through a pause -/

/-- A backend on SQLite. -/
def emailsEnv : Env := Env.ofConfig { family := .sqlite }

/-- No row, and no pause yet. -/
def emailsEmpty : QueueMoment := ⟨Db.empty, 0, none, [], fun _ => 0⟩

/-- A row that an older release has created: it has no `latency_started_at`. -/
def emailRow : ReadyExecution where
  id := 0
  jobId := 7
  backendAlias := "default"
  queueName := "emails"
  priority := 0
  createdAt := seconds 10
  latencyStartedAt := none

/-- An email made ready at 10 s. -/
def emailsReady : QueueMoment := { emailsEmpty with
  db := { emailsEmpty.db with
    ready := emailsEmpty.db.ready.insert (fun id => { emailRow with id := id }) }
  now := seconds 10
  readyAt := Function.update emailsEmpty.readyAt emailsEmpty.db.ready.nextId emailRow.origin }

/-- The queue paused at 20 s. -/
def emailsPaused : QueueMoment := { emailsReady with
  db := (finalState (pauseQueue emailsEnv "emails")
    ⟨emailsReady.db, fun _ => seconds 20, fun _ => 0⟩).db
  now := seconds 20
  pausedSince := some (seconds 20) }

/-- The queue resumed at 50 s. -/
def emailsResumed : QueueMoment := { emailsPaused with
  db := (finalState (resumeQueue emailsEnv "emails" none)
    ⟨emailsPaused.db, fun _ => seconds 50, fun _ => 0⟩).db
  now := seconds 50
  pausedSince := none
  pauses := [(seconds 20, seconds 50)] }

/-- It became ready at ten seconds and was paused from twenty to fifty: at sixty it has waited
twenty. -/
theorem latency_of_emails :
    returned (queueLatencySeconds "default" "emails" (some (seconds 60)) none none)
      ⟨emailsResumed.db, fun _ => 0, fun _ => 0⟩ = some (some (seconds 20)) := by
  have first : emailsReady.now ≤ seconds 20 := by decide
  have second : emailsPaused.now ≤ seconds 50 := by decide
  have history : Relation.ReflTransGen (QueueStep emailsEnv "emails") emailsEmpty
      emailsResumed := by
    apply Relation.ReflTransGen.tail
    · apply Relation.ReflTransGen.tail
      · exact .single (.readied emailsEmpty emailRow (seconds 10) (by decide) nofun)
      · exact .pauseQueue emailsReady (fun _ => seconds 20) (fun _ => 0) (seconds 20)
          fun _ => ⟨first, le_rfl⟩
    · exact .resumeQueue emailsPaused (fun _ => seconds 50) (fun _ => 0) (seconds 50) none
        (fun _ => ⟨second, le_rfl⟩) nofun
  have latency := (latency_excludes_paused_time emailsEnv "emails" ⟨rfl, rfl, rfl, rfl⟩ history rfl
    (seconds 60) (by decide)).2 (fun _ => 0) (fun _ => 0)
  refine latency.trans ?_
  decide

end DjQueue
