import DjQueue.Operations.Maintenance
import DjQueue.Relational.Interleaving

/-!
# Pausing a queue against running claims

`_claim_ready_jobs_once` and `pause_queue`, statement by statement.  A claim selects rows
on a snapshot that already leaves out paused queues, locks them, re-reads the pauses of
their queues under the latest committed data, and consumes what is left.  `pause_queue`
commits the pause row first; its second transaction then waits for the lock of every ready
row of the queue.

So a claim that did not see the pause has locked its rows before the pause was committed,
and `pause_queue` cannot return before that claim is over.  The re-read leaves out the
empty queue name (`lockActivePauses`), and for that name the argument breaks.
-/

namespace DjQueue.PauseBarrier

open Relational

/-- A claim transaction.  `locked` are the ready rows it holds the lock of. -/
inductive ClaimPhase where
  | idle
  | selecting (backendAlias : String) (snapshot locked : List ReadyExecution)
  | rechecked (backendAlias : String) (locked rows : List ReadyExecution)
  | consumed (backendAlias : String) (locked rows : List ReadyExecution)
deriving DecidableEq, Repr

/-- The rows a claim has locked. -/
def ClaimPhase.locked : ClaimPhase → List ReadyExecution
  | .idle => []
  | .selecting _ _ locked => locked
  | .rechecked _ locked _ => locked
  | .consumed _ locked _ => locked

/-- The rows a transaction will claim when it commits. -/
def ClaimPhase.kept : ClaimPhase → List ReadyExecution
  | .idle => []
  | .selecting _ _ _ => []
  | .rechecked _ _ rows => rows
  | .consumed _ _ rows => rows

/-- The call of `pause_queue`.  `inserts` says whether `get_or_create` found no row; `waiting`
are the rows its second transaction has still to lock. -/
inductive PausePhase where
  | idle
  | creating (inserts : Bool)
  | created
  | locking (waiting held : List Nat)
  | returned
deriving DecidableEq, Repr

/-- The rows a pause has locked. -/
def PausePhase.held : PausePhase → List Nat
  | .locking _ held => held
  | _ => []

/-- A database with the claims on it and the one pause. -/
structure State where
  db : Db
  claims : Pool ClaimPhase
  pause : PausePhase
  resumed : Bool

/-- No transaction holds the lock of the ready row. -/
def LockFree (s : State) (id : Nat) : Prop :=
  (∀ i, ∀ r ∈ (s.claims i).locked, r.id ≠ id) ∧ id ∉ s.pause.held

/-- The second half of `_lock_active_pauses`: drop the rows of the queues it found paused. -/
def recheck (db : Db) (backendAlias : String) (rows : List ReadyExecution) :
    List ReadyExecution :=
  rows.filter (fun r =>
    !(lockActivePauses db backendAlias (rows.map ReadyExecution.queueName)).contains r.queueName)

/-- The claim of these rows. -/
def commitClaims (db : Db) (process : Option Process) (claimedAt : Time)
    (rows : List ReadyExecution) : Db :=
  { db with
    ready := db.ready.deleteWhere (fun r => (rows.map ReadyExecution.id).contains r.id)
    claimed := rows.foldl (fun t r => t.insert (fun id =>
      { claimedRow r.jobId process claimedAt with id := id })) db.claimed }

/-- The pause, if there was none. -/
def commitPause (db : Db) (backendAlias queueName : String) (inserts : Bool) (now : Time) : Db :=
  if inserts then
    { db with pauses := db.pauses.insert (fun id => ⟨id, backendAlias, queueName, now⟩) }
  else db

/-- The end of the pause. -/
def commitResume (db : Db) (backendAlias queueName : String) : Db :=
  { db with pauses := db.pauses.deleteWhere (fun p =>
      p.backendAlias == backendAlias && p.queueName == queueName) }

/-- The ready rows `pause_queue` locks. -/
def queueRowIds (db : Db) (backendAlias queueName : String) : List Nat :=
  (db.ready.rows.filter (fun r =>
    r.backendAlias == backendAlias && r.queueName == queueName)).map ReadyExecution.id

/-- One statement or commit; the list holds the rows whose claims it commits. -/
inductive Step (backendAlias queueName : String) :
    State → List ReadyExecution → State → Prop
  /-- A selecting statement starts: rows and pauses are read on one snapshot. -/
  | select (s : State) (i : Nat) (b : String) (idle : s.claims i = .idle) :
      Step backendAlias queueName s []
        { s with claims := s.claims.set i (.selecting b (claimableRows s.db b) []) }
  /-- A further statement of the same selection, with a snapshot of its own. -/
  | selectMore (s : State) (i : Nat) {b : String} {snapshot locked : List ReadyExecution}
      (phase : s.claims i = .selecting b snapshot locked) :
      Step backendAlias queueName s []
        { s with claims := s.claims.set i (.selecting b (claimableRows s.db b) locked) }
  /-- The statement locks a row it selected, once the row is free and if it is still there. -/
  | lockReady (s : State) (i : Nat) {b : String} {snapshot locked : List ReadyExecution}
      (phase : s.claims i = .selecting b snapshot locked) (r : ReadyExecution)
      (selected : r ∈ snapshot) (present : r ∈ s.db.ready.rows) (free : LockFree s r.id) :
      Step backendAlias queueName s []
        { s with claims := s.claims.set i (.selecting b snapshot (r :: locked)) }
  /-- `_lock_active_pauses` on the latest committed pauses.  The rows are those the selection
  returned, which may be fewer than those it locked. -/
  | recheck (s : State) (i : Nat) {b : String} {snapshot locked : List ReadyExecution}
      (phase : s.claims i = .selecting b snapshot locked) (rows : List ReadyExecution)
      (selected : ∀ r ∈ rows, r ∈ locked) :
      Step backendAlias queueName s []
        { s with
          claims := s.claims.set i (.rechecked b locked (PauseBarrier.recheck s.db b rows)) }
  | consume (s : State) (i : Nat) {b : String} {locked rows : List ReadyExecution}
      (phase : s.claims i = .rechecked b locked rows) :
      Step backendAlias queueName s []
        { s with claims := s.claims.set i (.consumed b locked rows) }
  | commit (s : State) (i : Nat) {b : String} {locked rows : List ReadyExecution}
      (phase : s.claims i = .consumed b locked rows) (process : Option Process)
      (claimedAt : Time) :
      Step backendAlias queueName s rows
        { s with claims := s.claims.set i .idle
                 db := commitClaims s.db process claimedAt rows }
  | rollback (s : State) (i : Nat) :
      Step backendAlias queueName s [] { s with claims := s.claims.set i .idle }
  /-- `get_or_create` of the pause row, not yet committed. -/
  | createPause (s : State) (phase : s.pause = .idle) :
      Step backendAlias queueName s []
        { s with pause := .creating (!isPaused s.db backendAlias queueName) }
  | commitPause (s : State) {inserts : Bool} (phase : s.pause = .creating inserts) (now : Time) :
      Step backendAlias queueName s []
        { s with pause := .created
                 db := PauseBarrier.commitPause s.db backendAlias queueName inserts now }
  /-- The second transaction starts to lock the queue's rows. -/
  | lockRows (s : State) (phase : s.pause = .created) :
      Step backendAlias queueName s []
        { s with pause := .locking (queueRowIds s.db backendAlias queueName) [] }
  | lockRow (s : State) {waiting held : List Nat} (phase : s.pause = .locking waiting held)
      (id : Nat) (free : LockFree s id) :
      Step backendAlias queueName s []
        { s with pause := .locking (waiting.filter (fun k => k ≠ id)) (id :: held) }
  | returnPause (s : State) {held : List Nat} (phase : s.pause = .locking [] held) :
      Step backendAlias queueName s [] { s with pause := .returned }
  | resume (s : State) :
      Step backendAlias queueName s []
        { s with db := commitResume s.db backendAlias queueName, resumed := true }
  /-- Other transactions commit: they neither pause nor resume the queue, do not touch a locked
  ready row and claim nothing. -/
  | other (s : State) (db : Db)
      (pauses : isPaused db backendAlias queueName = isPaused s.db backendAlias queueName)
      (locked : ∀ r ∈ s.db.ready.rows, ¬ LockFree s r.id → r ∈ db.ready.rows)
      (claims : ∀ c ∈ db.claimed.rows, c ∈ s.db.claimed.rows) :
      Step backendAlias queueName s [] { s with db := db }

/-- Nothing has started. -/
def Initial (s : State) : Prop :=
  (∀ i, s.claims i = .idle) ∧ s.pause = .idle ∧ s.resumed = false

/-- The states any interleaving reaches. -/
def Reaches (backendAlias queueName : String) : State → State → Prop :=
  Reach (fun s t => ∃ claimed, Step backendAlias queueName s claimed t)

/-! ## The lock discipline -/

/-- The backend a claim transaction works for, and the rows it may have read. -/
def ClaimPhase.OfBackend : ClaimPhase → Prop
  | .idle => True
  | .selecting b snapshot locked =>
      (∀ r ∈ snapshot, r.backendAlias = b) ∧ ∀ r ∈ locked, r.backendAlias = b
  | .rechecked _ locked rows => ∀ r ∈ rows, r ∈ locked
  | .consumed _ locked rows => ∀ r ∈ rows, r ∈ locked

/-- Two transactions hold no lock in common. -/
def Disjoint (x y : ClaimPhase) : Prop := ∀ r ∈ x.locked, ∀ r' ∈ y.locked, r.id ≠ r'.id

theorem Disjoint.symm {x y : ClaimPhase} (disjoint : Disjoint x y) : Disjoint y x :=
  fun r mem r' mem' same => disjoint r' mem' r mem same.symm

/-- `pause_queue` has committed its row. -/
def PausePhase.Committed : PausePhase → Prop
  | .idle | .creating true => False
  | .creating false | .created | .locking _ _ | .returned => True

/-- The call still has to wait for the lock of the row. -/
def PausePhase.Awaits (id : Nat) : PausePhase → Prop
  | .idle | .creating _ | .created => True
  | .locking waiting _ => id ∈ waiting
  | .returned => False

/-- What every interleaving keeps, until the queue is resumed: a locked row is still there and
locked once; the committed pause is there; and a claim that will take a row of the queue holds
a lock the pause still waits for. -/
structure Inv (backendAlias queueName : String) (s : State) : Prop where
  phases : ∀ i, (s.claims i).OfBackend
  present : ∀ i, ∀ r ∈ (s.claims i).locked, r ∈ s.db.ready.rows
  exclusive : ∀ i j, i ≠ j → Disjoint (s.claims i) (s.claims j)
  paused : s.resumed = false → s.pause.Committed → isPaused s.db backendAlias queueName = true
  barrier : s.resumed = false → ∀ i, ∀ r ∈ (s.claims i).kept,
    r.backendAlias = backendAlias → r.queueName = queueName → s.pause.Awaits r.id

/-- The re-read drops every row of a paused queue with a name. -/
theorem not_paused_of_mem_recheck {db : Db} {b : String} {rows : List ReadyExecution}
    {r : ReadyExecution} (named : r.queueName ≠ "") (mem : r ∈ recheck db b rows) :
    isPaused db b r.queueName = false := by
  obtain ⟨present, kept⟩ := List.mem_filter.mp mem
  by_contra paused
  obtain ⟨p, here, hit⟩ := List.any_eq_true.mp (Bool.not_eq_false _ ▸ paused)
  simp only [Bool.and_eq_true, beq_iff_eq] at hit
  have found : r.queueName ∈ lockActivePauses db b (rows.map ReadyExecution.queueName) := by
    simp only [lockActivePauses, List.mem_filter, List.mem_map, List.contains_eq_mem,
      decide_eq_true_eq, ne_eq]
    exact ⟨⟨p, ⟨here, by simp [hit.1]⟩, hit.2⟩, ⟨r, present, rfl⟩, named⟩
  simp [found] at kept

section Steps

variable {A q : String} {s : State}

/-- A claim transaction moves: what it newly locks was free, what it newly keeps is safe. -/
theorem Inv.setClaim (inv : Inv A q s) (i : Nat) {x : ClaimPhase} (phase : x.OfBackend)
    (locks : ∀ r ∈ x.locked, r ∈ (s.claims i).locked ∨
      (r ∈ s.db.ready.rows ∧ LockFree s r.id))
    (keeps : s.resumed = false → ∀ r ∈ x.kept, r.backendAlias = A → r.queueName = q →
      s.pause.Awaits r.id) :
    Inv A q { s with claims := s.claims.set i x } where
  phases := Pool.forall_set (P := fun _ (y : ClaimPhase) => y.OfBackend) phase (fun j _ => inv.phases j)
  present := by
    refine Pool.forall_set (P := fun _ (y : ClaimPhase) => ∀ r ∈ y.locked, r ∈ s.db.ready.rows) ?_
      (fun j _ => inv.present j)
    intro r mem
    exact (locks r mem).elim (inv.present i r) And.left
  exclusive := by
    refine Pool.forall_pair_set (P := Disjoint) (fun _ _ => Disjoint.symm) ?_ inv.exclusive
    intro j ne r mem r' mem'
    rcases locks r mem with old | ⟨-, free⟩
    · exact inv.exclusive i j (Ne.symm ne) r old r' mem'
    · exact (free.1 j r' mem').symm
  paused := inv.paused
  barrier unresumed := Pool.forall_set
    (P := fun _ (y : ClaimPhase) => ∀ r ∈ y.kept, r.backendAlias = A → r.queueName = q →
      s.pause.Awaits r.id)
    (keeps unresumed) (fun j _ => inv.barrier unresumed j)

/-- The pause moves, over the same ready rows. -/
theorem Inv.setPause (inv : Inv A q s) {pause : PausePhase} {db : Db}
    (ready : db.ready = s.db.ready)
    (committed : s.resumed = false → pause.Committed → isPaused db A q = true)
    (awaits : ∀ i, ∀ r ∈ (s.claims i).locked, r.backendAlias = A → r.queueName = q →
      s.pause.Awaits r.id → pause.Awaits r.id) :
    Inv A q { s with pause := pause, db := db } where
  phases := inv.phases
  present i r mem := ready ▸ inv.present i r mem
  exclusive := inv.exclusive
  paused := committed
  barrier unresumed i r mem backend queue := by
    refine awaits i r ?_ backend queue (inv.barrier unresumed i r mem backend queue)
    have phase := inv.phases i
    revert mem phase
    cases s.claims i with
    | idle => exact fun mem _ => absurd mem List.not_mem_nil
    | selecting b snapshot locked => exact fun mem _ => absurd mem List.not_mem_nil
    | rechecked b locked rows => exact fun mem phase => phase r mem
    | consumed b locked rows => exact fun mem phase => phase r mem

/-- The tables change under the transactions, around what they hold. -/
theorem Inv.setDb (inv : Inv A q s) {db : Db}
    (present : ∀ i, ∀ r ∈ (s.claims i).locked, r ∈ db.ready.rows)
    (paused : s.resumed = false → s.pause.Committed → isPaused db A q = true) :
    Inv A q { s with db := db } where
  phases := inv.phases
  present := present
  exclusive := inv.exclusive
  paused := paused
  barrier := inv.barrier

/-- A queue is paused once the pause is committed. -/
theorem isPaused_commitPause (db : Db) (A q : String) (inserts : Bool) (now : Time)
    (paused : inserts = false → isPaused db A q = true) :
    isPaused (commitPause db A q inserts now) A q = true := by
  cases inserts with
  | false => exact paused rfl
  | true => simp [commitPause, isPaused]

/-- A transaction that commits deletes only rows it holds the lock of. -/
theorem Inv.commit (inv : Inv A q s) (i : Nat) {b : String} {locked rows : List ReadyExecution}
    (phase : s.claims i = .consumed b locked rows) (process : Option Process) (now : Time) :
    Inv A q { s with claims := s.claims.set i .idle, db := commitClaims s.db process now rows } := by
  have moved := inv.setClaim i (x := .idle) trivial (fun r mem => absurd mem List.not_mem_nil)
    (fun _ r mem => absurd mem List.not_mem_nil)
  refine moved.setDb ?_ inv.paused
  refine Pool.forall_set (P := fun _ (y : ClaimPhase) =>
    ∀ r ∈ y.locked, r ∈ (commitClaims s.db process now rows).ready.rows)
    (fun r mem => absurd mem List.not_mem_nil) ?_
  intro j ne r mem
  have own : ∀ r ∈ rows, r ∈ (s.claims i).locked := by
    have phases := inv.phases i
    rw [phase] at phases ⊢
    exact phases
  refine List.mem_filter.mpr ⟨inv.present j r mem, ?_⟩
  simp only [List.contains_eq_mem, List.mem_map, Bool.not_eq_true', decide_eq_false_iff_not,
    not_exists, not_and]
  intro r' mem' same
  exact inv.exclusive i j (Ne.symm ne) r' (own r' mem') r mem same

/-- A row that can be claimed is of the backend. -/
theorem backendAlias_of_mem_claimableRows {db : Db} {b : String} {r : ReadyExecution}
    (mem : r ∈ claimableRows db b) : r.backendAlias = b := by
  have hit := (List.mem_filter.mp mem).2
  simp only [Bool.and_eq_true, beq_iff_eq] at hit
  exact hit.1

/-- A claim that re-read the pauses keeps a row of the queue only before the pause is there. -/
theorem Inv.awaits_of_recheck (inv : Inv A q s) (named : q ≠ "") {rows : List ReadyExecution}
    {r : ReadyExecution} (mem : r ∈ PauseBarrier.recheck s.db A rows) (queue : r.queueName = q)
    (unresumed : s.resumed = false) : s.pause.Awaits r.id := by
  have unpaused := not_paused_of_mem_recheck (queue ▸ named) mem
  rw [queue] at unpaused
  have uncommitted : ¬ s.pause.Committed := fun committed =>
    Bool.false_ne_true (unpaused.symm.trans (inv.paused unresumed committed))
  cases phase : s.pause with
  | idle => trivial
  | creating inserts => trivial
  | created => exact absurd (phase ▸ trivial) uncommitted
  | locking waiting held => exact absurd (phase ▸ trivial) uncommitted
  | returned => exact absurd (phase ▸ trivial) uncommitted

/-- One statement of a claim, of the pause or of the resume keeps the invariant. -/
theorem Inv.step (named : q ≠ "") {claimed : List ReadyExecution} {t : State} (inv : Inv A q s)
    (step : Step A q s claimed t) : Inv A q t := by
  cases step with
  | select i b idle =>
      exact inv.setClaim i
        ⟨fun r mem => backendAlias_of_mem_claimableRows mem,
          fun r mem => absurd mem List.not_mem_nil⟩
        (fun r mem => absurd mem List.not_mem_nil) (fun _ r mem => absurd mem List.not_mem_nil)
  | selectMore i phase =>
      have old := inv.phases i
      rw [phase] at old
      refine inv.setClaim i ⟨fun r mem => backendAlias_of_mem_claimableRows mem, old.2⟩ ?_
        (fun _ r mem => absurd mem List.not_mem_nil)
      intro r mem
      exact .inl (by rw [phase]; exact mem)
  | @lockReady i b snapshot locked phase r selected present free =>
      have old := inv.phases i
      rw [phase] at old
      refine inv.setClaim i ⟨old.1, ?_⟩ ?_ (fun _ r mem => absurd mem List.not_mem_nil)
      · intro r' mem
        rcases List.mem_cons.mp mem with rfl | mem
        · exact old.1 r' selected
        · exact old.2 r' mem
      · intro r' mem
        rcases List.mem_cons.mp mem with rfl | mem
        · exact .inr ⟨present, free⟩
        · exact .inl (by rw [phase]; exact mem)
  | @recheck i b snapshot locked phase rows selected =>
      have old := inv.phases i
      rw [phase] at old
      have held : ∀ r ∈ PauseBarrier.recheck s.db b rows, r ∈ locked :=
        fun r mem => selected r (List.mem_filter.mp mem).1
      refine inv.setClaim i held (fun r mem => .inl (by rw [phase]; exact mem)) ?_
      intro unresumed r mem backend queue
      -- the transaction works for the paused backend, so its re-read saw the pause
      have same : b = A := (old.2 r (held r mem)).symm.trans backend
      subst same
      exact inv.awaits_of_recheck named mem queue unresumed
  | @consume i b locked rows phase =>
      have old := inv.phases i
      have waits := fun unresumed => inv.barrier unresumed i
      rw [phase] at old waits
      exact inv.setClaim i old (fun r mem => .inl (by rw [phase]; exact mem)) waits
  | commit i phase process claimedAt => exact inv.commit i phase process claimedAt
  | rollback i =>
      exact inv.setClaim i (x := .idle) trivial (fun r mem => absurd mem List.not_mem_nil)
        (fun _ r mem => absurd mem List.not_mem_nil)
  | createPause phase =>
      refine inv.setPause rfl ?_ (fun _ _ _ _ _ _ => trivial)
      intro _ committed
      cases paused : isPaused s.db A q with
      | true => rfl
      | false =>
          rw [paused] at committed
          exact committed.elim
  | @commitPause inserts phase now =>
      refine inv.setPause ?_ ?_ (fun _ _ _ _ _ _ => trivial)
      · cases inserts <;> rfl
      · intro unresumed _
        refine isPaused_commitPause s.db A q inserts now fun found => ?_
        exact inv.paused unresumed (by rw [phase, found]; trivial)
  | lockRows phase =>
      refine inv.setPause rfl (fun unresumed _ => inv.paused unresumed (by rw [phase]; trivial)) ?_
      intro i r mem backend queue _
      refine List.mem_map.mpr ⟨r, List.mem_filter.mpr ⟨inv.present i r mem, ?_⟩, rfl⟩
      simp [backend, queue]
  | @lockRow waiting held phase id free =>
      refine inv.setPause rfl (fun unresumed _ => inv.paused unresumed (by rw [phase]; trivial)) ?_
      intro i r mem _ _ awaits
      rw [phase] at awaits
      exact List.mem_filter.mpr ⟨awaits, by simpa using free.1 i r mem⟩
  | returnPause phase =>
      refine inv.setPause rfl (fun unresumed _ => inv.paused unresumed (by rw [phase]; trivial)) ?_
      intro i r mem _ _ awaits
      rw [phase] at awaits
      exact absurd awaits List.not_mem_nil
  | resume =>
      exact ⟨inv.phases, inv.present, inv.exclusive,
        fun unresumed => absurd unresumed.symm Bool.false_ne_true,
        fun unresumed => absurd unresumed.symm Bool.false_ne_true⟩
  | other db pauses locked claims =>
      refine inv.setDb ?_ (fun unresumed committed => pauses.trans (inv.paused unresumed committed))
      intro i r mem
      exact locked r (inv.present i r mem) (fun free => free.1 i r mem rfl)

end Steps

/-- The invariant holds before the first statement. -/
theorem Inv.initial (A q : String) {s : State} (initial : Initial s) : Inv A q s := by
  obtain ⟨idle, phase, -⟩ := initial
  refine ⟨fun i => ?_, fun i => ?_, fun i j _ => ?_, fun _ committed => ?_, fun _ i => ?_⟩
  · rw [idle i]
    trivial
  · rw [idle i]
    exact fun r mem => absurd mem List.not_mem_nil
  · rw [idle i]
    exact fun r mem => absurd mem List.not_mem_nil
  · rw [phase] at committed
    exact committed.elim
  · rw [idle i]
    exact fun r mem => absurd mem List.not_mem_nil

/-- Once `pause_queue` has returned, and until the queue is resumed, no step commits a claim on
a ready row of the backend and queue. -/
def PauseIsBarrier (A q : String) : Prop :=
  ∀ start s t claimed, Initial start → Reaches A q start s → Step A q s claimed t →
    s.pause = .returned → s.resumed = false →
    ∀ r ∈ claimed, ¬ (r.backendAlias = A ∧ r.queueName = q)

/-- A pause of a named queue is a barrier. -/
theorem pauseIsBarrier_of_named {A q : String} (named : q ≠ "") : PauseIsBarrier A q := by
  intro start s t claimed initial reached step returned unresumed r mem ⟨backend, queue⟩
  have inv : Inv A q s := Reach.invariant
    (fun {s t} inv next => next.elim fun _ next => Inv.step named inv next)
    (Inv.initial A q initial) reached
  cases step with
  | commit i phase process claimedAt =>
      have awaits := inv.barrier unresumed i r (by rw [phase]; exact mem) backend queue
      rw [returned] at awaits
      exact awaits
  | _ => exact absurd mem List.not_mem_nil

/-! ## The queue without a name -/

/-- One ready row. -/
def readyRow (backendAlias queueName : String) : ReadyExecution :=
  ⟨1, 7, backendAlias, queueName, 0, 0, some 0⟩

/-- One ready row, and nothing running. -/
def oneReadyRow (backendAlias queueName : String) : State where
  db := { Db.empty with ready := ⟨[readyRow backendAlias queueName], 2⟩ }
  claims _ := .idle
  pause := .idle
  resumed := false

/-- Locks are free while the only transaction at work holds none. -/
theorem lockFree_of_only {s : State} {i id : Nat} {x : ClaimPhase}
    (claims : s.claims = Pool.set (fun _ => .idle) i x) (locked : x.locked = [])
    (held : s.pause.held = []) : LockFree s id := by
  refine ⟨?_, by rw [held]; exact List.not_mem_nil⟩
  rw [claims]
  refine Pool.forall_set (P := fun _ (y : ClaimPhase) => ∀ r ∈ y.locked, r.id ≠ id) ?_ ?_
  · rw [locked]
    exact fun r mem => absurd mem List.not_mem_nil
  · exact fun j _ r mem => absurd mem List.not_mem_nil

/-- The whole of `pause_queue` runs while a claim's selecting statement is at work; the claim
then locks its row, re-reads no pause, and commits. -/
theorem unnamed_queue_claimed_after_pause (A : String) :
    ∃ s t claimed, Reaches A "" (oneReadyRow A "") s ∧ s.pause = .returned ∧ s.resumed = false ∧
      Step A "" s claimed t ∧ readyRow A "" ∈ claimed := by
  have selecting : Reaches A "" (oneReadyRow A "") _ :=
    .single ⟨[], .select (oneReadyRow A "") 0 A rfl⟩
  have creating := selecting.tail ⟨[], .createPause _ rfl⟩
  have created := creating.tail ⟨[], .commitPause _ rfl 1⟩
  have locking := created.tail ⟨[], .lockRows _ rfl⟩
  have locked := locking.tail ⟨[], .lockRow _ rfl 1 (lockFree_of_only rfl rfl rfl)⟩
  have returned := locked.tail ⟨[], @Step.returnPause _ _ _ [1] (by
    simp [queueRowIds, oneReadyRow, readyRow, PauseBarrier.commitPause, isPaused, Db.empty])⟩
  have taken := returned.tail ⟨[], .lockReady _ 0 rfl (readyRow A "")
    (by simp [claimableRows, oneReadyRow, readyRow, isPaused, Db.empty])
    (by simp [PauseBarrier.commitPause, oneReadyRow, isPaused, Db.empty])
    (lockFree_of_only rfl rfl rfl)⟩
  have rechecked := taken.tail ⟨[], .recheck _ 0 rfl [readyRow A ""] (by simp)⟩
  have consumed := rechecked.tail ⟨[], .consume _ 0 rfl⟩
  refine ⟨_, _, _, consumed, rfl, rfl, .commit _ 0 rfl none 5, ?_⟩
  simp [PauseBarrier.recheck, lockActivePauses, readyRow]

/-- A pause of the queue without a name is none. -/
theorem not_pauseIsBarrier_unnamed (A : String) : ¬ PauseIsBarrier A "" := by
  intro barrier
  obtain ⟨s, t, claimed, reached, returned, unresumed, step, mem⟩ :=
    unnamed_queue_claimed_after_pause A
  exact barrier _ s t claimed ⟨fun _ => rfl, rfl, rfl⟩ reached step returned unresumed _ mem
    ⟨rfl, rfl⟩

/-- `pause_queue` is a barrier for exactly the queues that have a name. -/
theorem pauseIsBarrier_iff (A q : String) : PauseIsBarrier A q ↔ q ≠ "" := by
  refine ⟨?_, pauseIsBarrier_of_named⟩
  rintro barrier rfl
  exact not_pauseIsBarrier_unnamed A barrier

theorem pause_of_unnamed_queue_is_no_barrier : ¬ PauseIsBarrier "default" "" :=
  not_pauseIsBarrier_unnamed "default"

end DjQueue.PauseBarrier
