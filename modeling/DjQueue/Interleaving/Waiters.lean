import DjQueue.Relational.Interleaving
import DjQueue.Slots.Rows

/-!
# Waiters and slots of one key, statement by statement

Transactions on one concurrency key of one backend: dispatches that take slots or block,
releases of a finished job's slot, promotions of expired waiters and recoveries of crashed
claims.  A step is one statement, or the wait of a statement for the semaphore's lock.
Statements see committed rows and their own transaction's changes; the lock of a blocked row
or of the semaphore row is held to the commit; selections skip rows locked by others.

The semaphore row is only ever read under its lock, so one copy of it, uncommitted changes
included, is exact.  The ready and claimed rows of the key decide none of these statements
and are left out.

A waiter is stranded when it is left blocked beside a free slot.  What keeps that from
happening is the invariant below: while a slot is free, every blocked row is locked by a
transaction that has not yet come to it, or is still owed the second look of a release.
-/

namespace DjQueue.Waiters

open Relational

/-- The uncommitted changes of a transaction to the blocked rows, and the rows it has locked. -/
structure Work where
  locked : List Nat := []
  removed : List Nat := []
  renewed : List (Nat × Time) := []
  added : List BlockedExecution := []
deriving DecidableEq, Repr

/-- Where a transaction stands.
`dispatching` has asked for slots, and `refused` of its jobs are still to be blocked or dropped;
`handing` has selected the waiter it wants to hand its slot to; `releasing` found none;
`released` has given its slot back and has not looked again; `consuming` has, and found one;
`promoting` goes through expired waiters; `recovering` has selected waiters for its slots. -/
inductive Phase where
  | idle
  | dispatching (refused : Nat) (w : Work)
  | handing (row : BlockedExecution)
  | releasing (w : Work)
  | released (w : Work)
  | consuming (row : BlockedExecution) (w : Work)
  | promoting (now : Time) (pending : List BlockedExecution) (w : Work)
  | recovering (releaseCount : Nat) (rows : List BlockedExecution)
  | done (w : Work)
deriving DecidableEq, Repr

/-- What a transaction has done and not committed. -/
def Phase.work : Phase → Work
  | .idle => {}
  | .handing row => { locked := [row.id] }
  | .recovering _ rows => { locked := rows.map BlockedExecution.id }
  | .dispatching _ w | .releasing w | .released w | .consuming _ w | .promoting _ _ w
  | .done w => w

/-- The rows of one key with its semaphore, and the transactions on them. -/
structure State where
  blocked : List BlockedExecution
  nextId : Nat
  sem : Semaphore
  semLock : Option Nat
  txs : Pool Phase

/-- A transaction may go on with the semaphore row: nobody else holds its lock. -/
def MayLock (s : State) (i : Nat) : Prop := s.semLock = none ∨ s.semLock = some i

/-- What a statement of transaction `i` sees, and does not skip as locked by another. -/
def Sees (s : State) (i : Nat) (b : BlockedExecution) : Prop :=
  ((b ∈ s.blocked ∧ b.id ∉ (s.txs i).work.removed) ∨ b ∈ (s.txs i).work.added) ∧
    ∀ j, j ≠ i → b.id ∉ (s.txs j).work.locked

/-- `ORDER BY … LIMIT n FOR UPDATE SKIP LOCKED` over the eligible rows. -/
structure Selects (eligible : BlockedExecution → Prop)
    (order : BlockedExecution → BlockedExecution → Bool) (n : Nat)
    (rows : List BlockedExecution) : Prop where
  sound : ∀ b ∈ rows, eligible b
  nodup : rows.Nodup
  limited : rows.length ≤ n
  exhaustive : rows.length < n → ∀ b, eligible b → b ∈ rows
  first : ∀ b ∈ rows, ∀ b', eligible b' → b' ∉ rows → order b b' = true

/-- A waiter put back: the same row under a new key. -/
def restored (s : State) (row : BlockedExecution) : BlockedExecution := { row with id := s.nextId }

/-- A row this transaction deletes. -/
def Work.remove (w : Work) (row : BlockedExecution) : Work :=
  { w with removed := row.id :: w.removed, added := w.added.filter (fun b => b.id ≠ row.id) }

/-- A row this transaction adds. -/
def Work.add (w : Work) (row : BlockedExecution) : Work := { w with added := w.added ++ [row] }

/-- What a refused hand-off leaves: PostgreSQL never deleted the waiter, the others put it
back. -/
def refusedHandoff (family : BackendFamily) (s : State) (row : BlockedExecution) : Work :=
  match family with
  | .postgresql => { locked := [row.id] }
  | _ => { locked := [row.id], removed := [row.id], added := [restored s row] }

/-- The rows a recovery promotes: `blocked_rows[:promote_count]`. -/
def promotedRows (releaseCount : Nat) (limit : Int) (rows : List BlockedExecution)
    (sem : Semaphore) : List BlockedExecution :=
  pySlice (min (min (releaseCount : Int) (groupAvailable releaseCount limit sem)) rows.length) rows

/-- The blocked rows once a transaction has committed. -/
def Work.apply (w : Work) (blocked : List BlockedExecution) : List BlockedExecution :=
  (blocked.filter (fun b => !w.removed.contains b.id)).map (fun b =>
    { b with expiresAt := (w.renewed.lookup b.id).getD b.expiresAt }) ++ w.added

/-- The transaction has nothing left to do. -/
def Phase.Finished : Phase → Prop
  | .dispatching refused _ => refused = 0
  | .promoting _ pending _ => pending = []
  | .done _ => True
  | _ => False

/-- A dispatch, not yet begun or under way. -/
def Phase.Dispatches (refused : Nat) (w : Work) (x : Phase) : Prop :=
  (x = .idle ∧ refused = 0 ∧ w = {}) ∨ x = .dispatching refused w

/-- Who makes a step. -/
inductive Action where
  | dispatch
  | release
  | promote
  | recoverSelect
  | recoverSettle (i : Nat)
  | commit
deriving DecidableEq, Repr

section Steps

variable (family : BackendFamily) (L : Int)

/-- One statement of one transaction. -/
inductive Step : State → Action → State → Prop
  /-- `semaphore_acquire` of a dispatch; a refused job is blocked or dropped next. -/
  | acquire (s : State) (i : Nat) {refused : Nat} {w : Work} (expiresAt now : Time)
      (phase : (s.txs i).Dispatches refused w)
      (lock : MayLock s i) :
      Step s .dispatch
        { s with
          sem := (acquireRow family L expiresAt now s.sem).2
          semLock := some i
          txs := s.txs.set i (.dispatching
            (refused + if (acquireRow family L expiresAt now s.sem).1 then 0 else 1) w) }
  /-- `semaphore_acquire_many` of a bulk dispatch. -/
  | acquireMany (s : State) (i : Nat) {refused : Nat} {w : Work} (count : Nat)
      (expiresAt now : Time)
      (phase : (s.txs i).Dispatches refused w)
      (lock : MayLock s i) :
      Step s .dispatch
        { s with
          sem := acquireManyRow count L expiresAt now s.sem
          semLock := some i
          txs := s.txs.set i (.dispatching
            (refused + ((count : Int) - acquirableCount count L s.sem).toNat) w) }
  /-- A refused job is blocked. -/
  | block (s : State) (i : Nat) {refused : Nat} {w : Work}
      (phase : s.txs i = .dispatching (refused + 1) w) (row : BlockedExecution)
      (fresh : row.id = s.nextId) :
      Step s .dispatch
        { s with
          nextId := s.nextId + 1
          txs := s.txs.set i (.dispatching refused (w.add row)) }
  /-- A refused job is discarded. -/
  | discard (s : State) (i : Nat) {refused : Nat} {w : Work}
      (phase : s.txs i = .dispatching (refused + 1) w) :
      Step s .dispatch { s with txs := s.txs.set i (.dispatching refused w) }
  /-- The first look of a release finds no waiter it can lock. -/
  | lookNone (s : State) (i : Nat) (phase : s.txs i = .idle)
      (selected : Selects (Sees s i) blockedOrder 1 []) :
      Step s .release { s with txs := s.txs.set i (.releasing {}) }
  | look (s : State) (i : Nat) (phase : s.txs i = .idle) (row : BlockedExecution)
      (selected : Selects (Sees s i) blockedOrder 1 [row]) :
      Step s .release { s with txs := s.txs.set i (.handing row) }
  /-- The hand-off of the claimed slot is accepted. -/
  | handoff (s : State) (i : Nat) {row : BlockedExecution} (expiresAt now : Time)
      (phase : s.txs i = .handing row) (lock : MayLock s i)
      (accepted : (handoffReleasedClaimedSlotUpdate L expiresAt now).filter s.sem = true) :
      Step s .release
        { s with
          sem := (handoffReleasedClaimedSlotUpdate L expiresAt now).run
            family.evaluationOrder s.sem
          semLock := some i
          txs := s.txs.set i (.done { locked := [row.id], removed := [row.id] }) }
  | handoffRefused (s : State) (i : Nat) {row : BlockedExecution} (expiresAt now : Time)
      (phase : s.txs i = .handing row) (lock : MayLock s i)
      (refused : (handoffReleasedClaimedSlotUpdate L expiresAt now).filter s.sem = false) :
      Step s .release
        { s with
          nextId := s.nextId + 1
          semLock := some i
          txs := s.txs.set i (.releasing (refusedHandoff family s row)) }
  /-- `semaphore_release` -/
  | release (s : State) (i : Nat) {w : Work} (expiresAt now : Time)
      (phase : s.txs i = .releasing w) (lock : MayLock s i) :
      Step s .release
        { s with
          sem := (semaphoreReleaseUpdate L expiresAt now).run family.evaluationOrder s.sem
          semLock := some i
          txs := s.txs.set i (.released w) }
  /-- The second look finds no waiter it can lock. -/
  | lookAgainNone (s : State) (i : Nat) {w : Work} (phase : s.txs i = .released w)
      (selected : Selects (Sees s i) blockedOrder 1 []) :
      Step s .release { s with txs := s.txs.set i (.done w) }
  | lookAgain (s : State) (i : Nat) {w : Work} (phase : s.txs i = .released w)
      (row : BlockedExecution) (selected : Selects (Sees s i) blockedOrder 1 [row]) :
      Step s .release
        { s with txs := s.txs.set i (.consuming row { w with locked := row.id :: w.locked }) }
  | consume (s : State) (i : Nat) {row : BlockedExecution} {w : Work} (expiresAt now : Time)
      (phase : s.txs i = .consuming row w)
      (accepted : (consumeReleasedSemaphoreSlotUpdate L expiresAt now).filter s.sem = true) :
      Step s .release
        { s with
          sem := (consumeReleasedSemaphoreSlotUpdate L expiresAt now).run
            family.evaluationOrder s.sem
          txs := s.txs.set i (.done (w.remove row)) }
  | consumeRefused (s : State) (i : Nat) {row : BlockedExecution} {w : Work}
      (expiresAt now : Time) (phase : s.txs i = .consuming row w)
      (refused : (consumeReleasedSemaphoreSlotUpdate L expiresAt now).filter s.sem = false) :
      Step s .release
        { s with
          nextId := s.nextId + 1
          txs := s.txs.set i (.done ((w.remove row).add (restored s row))) }
  /-- `promote_expired_blocked_jobs` selects its batch. -/
  | promoteSelect (s : State) (i : Nat) (phase : s.txs i = .idle) (now : Time) (batchSize : Nat)
      (rows : List BlockedExecution)
      (selected : Selects (fun b => Sees s i b ∧ b.expiresAt ≤ now) expiredOrder batchSize rows) :
      Step s .promote
        { s with
          txs := s.txs.set i (.promoting now rows { locked := rows.map BlockedExecution.id }) }
  /-- The next expired waiter gets a slot and is promoted. -/
  | promoteNext (s : State) (i : Nat) {now : Time} {row : BlockedExecution}
      {pending : List BlockedExecution} {w : Work} (expiresAt stamp : Time)
      (phase : s.txs i = .promoting now (row :: pending) w) (lock : MayLock s i)
      (given : (acquireRow family L expiresAt stamp s.sem).1 = true) :
      Step s .promote
        { s with
          sem := (acquireRow family L expiresAt stamp s.sem).2
          semLock := some i
          txs := s.txs.set i (.promoting now pending (w.remove row)) }
  /-- The next expired waiter gets none and waits on. -/
  | renewNext (s : State) (i : Nat) {now : Time} {row : BlockedExecution}
      {pending : List BlockedExecution} {w : Work} (expiresAt stamp renewedUntil : Time)
      (phase : s.txs i = .promoting now (row :: pending) w) (lock : MayLock s i)
      (refused : (acquireRow family L expiresAt stamp s.sem).1 = false) :
      Step s .promote
        { s with
          sem := (acquireRow family L expiresAt stamp s.sem).2
          semLock := some i
          txs := s.txs.set i (.promoting now pending
            { w with renewed := (row.id, renewedUntil) :: w.renewed }) }
  /-- `_release_recovered_concurrency_group` selects waiters for its slots. -/
  | recoverSelect (s : State) (i : Nat) (phase : s.txs i = .idle) (releaseCount : Nat)
      (rows : List BlockedExecution)
      (selected : Selects (Sees s i) blockedOrder releaseCount rows) :
      Step s .recoverSelect
        { s with
          txs := s.txs.set i (.recovering releaseCount rows) }
  /-- It locks the semaphore, promotes what it can of the rows it selected, and gives the other
  slots back. -/
  | recoverSettle (s : State) (i : Nat) {releaseCount : Nat} {rows : List BlockedExecution}
      (expiresAt now : Time) (phase : s.txs i = .recovering releaseCount rows)
      (lock : MayLock s i) :
      Step s (.recoverSettle i)
        { s with
          sem := groupReleaseRow L (groupAvailable releaseCount L s.sem)
            (promotedRows releaseCount L rows s.sem).length expiresAt now s.sem
          semLock := some i
          txs := s.txs.set i (.done {
            locked := rows.map BlockedExecution.id
            removed := (promotedRows releaseCount L rows s.sem).map BlockedExecution.id }) }
  | commit (s : State) (i : Nat) (finished : (s.txs i).Finished) :
      Step s .commit
        { s with
          blocked := (s.txs i).work.apply s.blocked
          semLock := if s.semLock = some i then none else s.semLock
          txs := s.txs.set i .idle }

end Steps

/-! ## The invariant -/

/-- The transaction has touched the semaphore row, and so holds its lock. -/
def Phase.Holding : Phase → Prop
  | .idle | .handing _ | .recovering _ _ => False
  | .releasing w => w.locked ≠ []
  | .promoting _ _ w => w.removed ≠ [] ∨ w.renewed ≠ []
  | .dispatching _ _ | .released _ | .consuming _ _ | .done _ => True

/-- The blocked row is gone with the commit, or the transaction has still to come to it. -/
def Phase.Pending (id : Nat) : Phase → Prop
  | .handing row => row.id = id
  | .promoting _ pending w => id ∈ pending.map BlockedExecution.id ∨ id ∈ w.removed
  | .recovering _ rows => id ∈ rows.map BlockedExecution.id
  | .idle => False
  | .dispatching _ w | .releasing w | .released w | .consuming _ w | .done w => id ∈ w.removed

/-- The transaction leaves waiters behind: it met a semaphore without a free slot. -/
def Phase.Exhausted : Phase → Prop
  | .dispatching refused w => 0 < refused ∨ w.renewed ≠ [] ∨ w.added ≠ []
  | x => x.work.renewed ≠ [] ∨ x.work.added ≠ []

/-- A refused hand-off found fewer than no slots free, and has still to give its own back. -/
def Phase.unreleased : Phase → Int
  | .releasing _ => 1
  | _ => 0

/-- The slot a release has given back and not yet offered to a waiter. -/
def Phase.slack : Phase → Int
  | .released _ | .consuming _ _ => 1
  | _ => 0

/-- A recovery selected no more waiters than it has slots. -/
def Phase.Limited : Phase → Prop
  | .recovering releaseCount rows => rows.length ≤ releaseCount
  | _ => True

/-- The slots freed by the transaction that has the lock. -/
def slack (s : State) : Int :=
  match s.semLock with
  | none => 0
  | some i => (s.txs i).slack

/-- What holds between the statements of all transactions. -/
structure Inv (L : Int) (s : State) : Prop where
  limit : s.sem.limit = L
  numbered : s.sem.id ≠ 0
  holding : ∀ i, (s.txs i).Holding → s.semLock = some i
  locked : ∀ i, s.semLock ≠ some i → ∀ id ∈ (s.txs i).work.locked, (s.txs i).Pending id
  exhausted : ∀ i, (s.txs i).Exhausted →
    s.semLock = some i ∧ s.sem.value + (s.txs i).unreleased ≤ 0
  limited : ∀ i, (s.txs i).Limited
  safe : 0 < s.sem.value - slack s → ∀ b ∈ s.blocked, ∃ i, (s.txs i).Pending b.id

/-- Whoever has freed a slot has the lock. -/
theorem Phase.holding_of_slack {x : Phase} (freed : x.slack ≠ 0) : x.Holding := by
  cases x with
  | released w => trivial
  | consuming row w => trivial
  | _ => exact absurd rfl freed

section Keeps

variable {L : Int} {s : State}

/-- Whoever may lock the semaphore is the only one that can hold it. -/
theorem MayLock.ne_other {i j : Nat} (lock : MayLock s i) (ne : j ≠ i) :
    s.semLock ≠ some j := by
  rcases lock with free | own
  · rw [free]
    exact fun h => by cases h
  · rw [own]
    exact fun h => ne (Option.some.inj h).symm

/-- The slack is that of the transaction that may lock. -/
theorem Inv.slack_eq (inv : Inv L s) {i : Nat} (lock : MayLock s i) :
    slack s = (s.txs i).slack := by
  rcases lock with free | own
  · by_contra freed
    have none : slack s = 0 := by simp only [slack, free]
    have held := inv.holding i (Phase.holding_of_slack fun zero => freed (none.trans zero.symm))
    rw [free] at held
    cases held
  · simp only [slack, own]

/-- What the invariant says to a transaction that may lock the semaphore. -/
theorem Inv.safe_for (inv : Inv L s) {i : Nat} (lock : MayLock s i)
    (free : 0 < s.sem.value - (s.txs i).slack) :
    ∀ b ∈ s.blocked, (s.txs i).Pending b.id ∨ ∃ j, j ≠ i ∧ (s.txs j).Pending b.id := by
  intro b mem
  obtain ⟨j, pending⟩ := inv.safe (by rw [inv.slack_eq lock]; exact free) b mem
  by_cases same : j = i
  · exact .inl (same ▸ pending)
  · exact .inr ⟨j, same, pending⟩

/-- A transaction that holds the semaphore's lock moves, and may change the row. -/
theorem Inv.lockedStep (inv : Inv L s) {i : Nat} (lock : MayLock s i) {x : Phase}
    {sem : Semaphore} (nextId : Nat) (limit : sem.limit = L) (numbered : sem.id ≠ 0)
    (exhausted : x.Exhausted → sem.value + x.unreleased ≤ 0) (limited : x.Limited)
    (safe : 0 < sem.value - x.slack → ∀ b ∈ s.blocked,
      x.Pending b.id ∨ ∃ j, j ≠ i ∧ (s.txs j).Pending b.id) :
    Inv L { s with nextId := nextId, sem := sem, semLock := some i, txs := s.txs.set i x } where
  limit := limit
  numbered := numbered
  holding := Pool.forall_set (P := fun j (y : Phase) => y.Holding → some i = some j)
    (fun _ => rfl)
    (fun j ne held => absurd (inv.holding j held) (lock.ne_other ne))
  locked := Pool.forall_set (P := fun j (y : Phase) => some i ≠ some j →
      ∀ id ∈ y.work.locked, y.Pending id)
    (fun ne => absurd rfl ne)
    (fun j ne _ => inv.locked j (lock.ne_other ne))
  exhausted := Pool.forall_set
    (P := fun j (y : Phase) => y.Exhausted → some i = some j ∧ sem.value + y.unreleased ≤ 0)
    (fun left => ⟨rfl, exhausted left⟩)
    (fun j ne left => absurd (inv.exhausted j left).1 (lock.ne_other ne))
  limited := Pool.forall_set (P := fun _ (y : Phase) => y.Limited) limited
    (fun j _ => inv.limited j)
  safe := by
    intro free b mem
    have left : 0 < sem.value - x.slack := by
      simpa only [DjQueue.Waiters.slack, Pool.set_same] using free
    rcases safe left b mem with own | ⟨j, ne, pending⟩
    · exact ⟨i, by simpa only [Pool.set_same] using own⟩
    · exact ⟨j, by simpa only [Pool.set_other _ _ ne] using pending⟩

/-- An idle transaction selects and locks waiters. -/
theorem Inv.selectStep (inv : Inv L s) {i : Nat} (idle : s.txs i = .idle) {x : Phase}
    (holding : ¬ x.Holding) (locked : ∀ id ∈ x.work.locked, x.Pending id)
    (exhausted : ¬ x.Exhausted) (limited : x.Limited) (slackless : x.slack = 0) :
    Inv L { s with txs := s.txs.set i x } where
  limit := inv.limit
  numbered := inv.numbered
  holding := Pool.forall_set (P := fun j (y : Phase) => y.Holding → s.semLock = some j)
    (fun held => absurd held holding) (fun j _ => inv.holding j)
  locked := Pool.forall_set (P := fun j (y : Phase) => s.semLock ≠ some j →
      ∀ id ∈ y.work.locked, y.Pending id)
    (fun _ => locked) (fun j _ => inv.locked j)
  exhausted := Pool.forall_set
    (P := fun j (y : Phase) => y.Exhausted → s.semLock = some j ∧ s.sem.value + y.unreleased ≤ 0)
    (fun left => absurd left exhausted) (fun j _ => inv.exhausted j)
  limited := Pool.forall_set (P := fun _ (y : Phase) => y.Limited) limited
    (fun j _ => inv.limited j)
  safe := by
    intro free b mem
    have slackEq : slack { s with txs := s.txs.set i x } = slack s := by
      simp only [slack]
      cases s.semLock with
      | none => rfl
      | some j =>
          by_cases same : j = i
          · subst same
            show (s.txs.set j x j).slack = (s.txs j).slack
            rw [Pool.set_same, slackless, idle]
            rfl
          · simp only [Pool.set_other _ _ same]
    rw [slackEq] at free
    obtain ⟨j, pending⟩ := inv.safe free b mem
    have ne : j ≠ i := by
      rintro rfl
      rw [idle] at pending
      exact pending
    exact ⟨j, by simpa only [Pool.set_other _ _ ne] using pending⟩

/-- A committed row, as far as locks and pending work go, is one that was there before, or one
the transaction added. -/
theorem Work.of_mem_apply {w : Work} {blocked : List BlockedExecution} {b : BlockedExecution}
    (mem : b ∈ w.apply blocked) :
    (∃ b' ∈ blocked, b'.id = b.id ∧ b.id ∉ w.removed) ∨ b ∈ w.added := by
  rcases List.mem_append.mp mem with old | new
  · obtain ⟨b', mem', rfl⟩ := List.mem_map.mp old
    obtain ⟨mem', kept⟩ := List.mem_filter.mp mem'
    exact .inl ⟨b', mem', rfl, by simpa using kept⟩
  · exact .inr new

/-- A finished transaction has removed what it was to remove. -/
theorem Phase.pending_of_finished {x : Phase} (finished : x.Finished) {id : Nat}
    (pending : x.Pending id) : id ∈ x.work.removed := by
  cases x with
  | dispatching refused w => exact pending
  | done w => exact pending
  | promoting now rows w =>
      rcases pending with rest | removed
      · rw [show rows = [] from finished] at rest
        exact absurd rest List.not_mem_nil
      · exact removed
  | _ => exact finished.elim

/-- Whoever adds a waiter has seen all slots taken. -/
theorem Phase.exhausted_of_added {x : Phase} (added : x.work.added ≠ []) : x.Exhausted := by
  cases x with
  | dispatching refused w => exact .inr (.inr added)
  | _ => exact .inr added

/-- What is to be released is a number. -/
theorem Phase.unreleased_nonneg (x : Phase) : 0 ≤ x.unreleased := by
  cases x with
  | releasing w => exact Int.one_nonneg
  | _ => exact le_refl 0

/-- A finished transaction has handed over what it freed. -/
theorem Phase.slack_of_finished {x : Phase} (finished : x.Finished) : x.slack = 0 := by
  cases x with
  | released w => exact finished.elim
  | consuming row w => exact finished.elim
  | _ => rfl

/-- A finished transaction commits: what it locked and did not remove is unlocked, which only
happens without a free slot. -/
theorem Inv.commit (inv : Inv L s) {i : Nat} (finished : (s.txs i).Finished) :
    Inv L { s with blocked := (s.txs i).work.apply s.blocked
                   semLock := if s.semLock = some i then none else s.semLock
                   txs := s.txs.set i .idle } where
  limit := inv.limit
  numbered := inv.numbered
  holding := by
    refine Pool.forall_set (P := fun j (y : Phase) => y.Holding →
      (if s.semLock = some i then none else s.semLock) = some j) (fun held => held.elim) ?_
    intro j ne held
    have own := inv.holding j held
    rw [own, if_neg (fun same => ne (Option.some.inj same))]
  locked := by
    refine Pool.forall_set (P := fun j (y : Phase) =>
      (if s.semLock = some i then none else s.semLock) ≠ some j →
        ∀ id ∈ y.work.locked, y.Pending id) (fun _ id mem => absurd mem List.not_mem_nil) ?_
    intro j ne other
    refine inv.locked j fun own => other ?_
    rw [own, if_neg (fun same => ne (Option.some.inj same))]
  exhausted := by
    refine Pool.forall_set (P := fun j (y : Phase) => y.Exhausted →
      (if s.semLock = some i then none else s.semLock) = some j ∧
        s.sem.value + y.unreleased ≤ 0) ?_ ?_
    · exact fun left => left.elim (fun h => absurd rfl h) (fun h => absurd rfl h)
    · intro j ne left
      obtain ⟨own, used⟩ := inv.exhausted j left
      rw [own, if_neg (fun same => ne (Option.some.inj same))]
      exact ⟨rfl, used⟩
  limited := Pool.forall_set (P := fun _ (y : Phase) => y.Limited) trivial
    (fun j _ => inv.limited j)
  safe := by
    intro free b mem
    have before : 0 < s.sem.value - slack s := by
      refine lt_of_lt_of_eq free ?_
      simp only [slack]
      by_cases own : s.semLock = some i
      · simp only [own, if_true, Phase.slack_of_finished finished]
      · simp only [if_neg own]
        cases holder : s.semLock with
        | none => rfl
        | some j =>
            have ne : j ≠ i := fun same => own (same ▸ holder)
            simp only [Pool.set_other _ _ ne]
    rcases Work.of_mem_apply mem with ⟨b', mem', same, kept⟩ | added
    · obtain ⟨j, pending⟩ := inv.safe before b' mem'
      have ne : j ≠ i := by
        rintro rfl
        exact kept (same ▸ Phase.pending_of_finished finished pending)
      exact ⟨j, by simpa only [Pool.set_other _ _ ne, same] using pending⟩
    · -- rows are only added while no slot is free
      have used := (inv.exhausted i (Phase.exhausted_of_added (List.ne_nil_of_mem added)))
      have slackEq : slack s = 0 := by
        simp only [slack, used.1, Phase.slack_of_finished finished]
      rw [slackEq] at before
      have := Phase.unreleased_nonneg (s.txs i)
      exact absurd before (by omega)

end Keeps

/-! ## Every step -/

/-- The rows the transaction read are all it could have locked, or as many as it wanted.  For a
recovery, this is asked when it takes the semaphore's lock. -/
def SelectionComplete (s : State) (i : Nat) : Prop :=
  match s.txs i with
  | .recovering releaseCount rows => rows.length = releaseCount ∨ ∀ b, Sees s i b → b ∈ rows
  | _ => True

section Steps

variable {family : BackendFamily} {L : Int} {s : State}

/-- A row that another transaction has locked is one that transaction has still to come to. -/
theorem Inv.pending_of_not_sees (inv : Inv L s) {i : Nat} (lock : MayLock s i)
    {b : BlockedExecution} (mem : b ∈ s.blocked) (unseen : ¬ Sees s i b) :
    b.id ∈ (s.txs i).work.removed ∨ ∃ j, j ≠ i ∧ (s.txs j).Pending b.id := by
  by_cases own : b.id ∈ (s.txs i).work.removed
  · exact .inl own
  · refine .inr ?_
    by_contra none
    refine unseen ⟨.inl ⟨mem, own⟩, fun j ne held => none ⟨j, ne, ?_⟩⟩
    exact inv.locked j (lock.ne_other ne) b.id held

theorem Phase.Dispatches.facts {x : Phase} {refused : Nat} {w : Work}
    (phase : x.Dispatches refused w) :
    x.slack = 0 ∧ (∀ id, x.Pending id → id ∈ w.removed) ∧
      (0 < refused ∨ w.renewed ≠ [] ∨ w.added ≠ [] → x.Exhausted) := by
  rcases phase with ⟨rfl, rfl, rfl⟩ | rfl
  · refine ⟨rfl, fun id pending => pending.elim, ?_⟩
    rintro (none | none | none)
    · exact absurd none (lt_irrefl 0)
    · exact absurd rfl none
    · exact absurd rfl none
  · exact ⟨rfl, fun id pending => pending, fun left => left⟩

/-- A dispatch takes slots: it is refused one only when it leaves none. -/
theorem Inv.dispatchStep (inv : Inv L s) {i : Nat} {refused more : Nat} {w : Work}
    (phase : (s.txs i).Dispatches refused w) (lock : MayLock s i) {sem : Semaphore}
    (limit : sem.limit = L) (numbered : sem.id ≠ 0) (fewer : 0 < sem.value → sem.value ≤ s.sem.value)
    (used : s.sem.value ≤ 0 → sem.value ≤ 0) (blocked : 0 < more → sem.value ≤ 0) :
    Inv L { s with sem := sem, semLock := some i,
                   txs := s.txs.set i (.dispatching (refused + more) w) } := by
  obtain ⟨slackless, pending, left⟩ := phase.facts
  have nonneg := Phase.unreleased_nonneg (s.txs i)
  refine inv.lockedStep lock _ limit numbered ?_ trivial ?_
  · intro exhausted
    simp only [Phase.unreleased, Int.add_zero]
    by_cases now : 0 < more
    · exact blocked now
    · have := (inv.exhausted i (left (exhausted.imp_left (by omega)))).2
      exact used (by omega)
  · intro free b mem
    have before : 0 < s.sem.value - (s.txs i).slack := by
      simp only [Phase.slack, Int.sub_zero] at free
      rw [slackless]
      have := fewer free
      omega
    exact (inv.safe_for lock before b mem).imp_left (pending b.id)

/-- A slot that is acquired, or refused. -/
theorem Inv.acquire (positive : 0 < L) (inv : Inv L s) {i : Nat} {refused : Nat} {w : Work}
    (expiresAt now : Time) (phase : (s.txs i).Dispatches refused w) (lock : MayLock s i) :
    Inv L { s with
      sem := (acquireRow family L expiresAt now s.sem).2
      semLock := some i
      txs := s.txs.set i (.dispatching
        (refused + if (acquireRow family L expiresAt now s.sem).1 then 0 else 1) w) } := by
  have takes := acquireRow_takes positive expiresAt now s.sem family inv.numbered
  obtain ⟨given, less, none⟩ := takes.value_of_limit inv.limit positive
  refine inv.dispatchStep phase lock takes.limit (takes.id ▸ inv.numbered) ?_ ?_ ?_
  · intro free
    cases result : (acquireRow family L expiresAt now s.sem).1 with
    | true => exact le_of_lt (less result)
    | false =>
        rw [none result] at free
        exact absurd free (lt_irrefl 0)
  · intro used
    cases result : (acquireRow family L expiresAt now s.sem).1 with
    | true => exact absurd (given.mp result) (by omega)
    | false => exact le_of_eq (none result)
  · intro refusedNow
    cases result : (acquireRow family L expiresAt now s.sem).1 with
    | true => simp [result] at refusedNow
    | false => exact le_of_eq (none result)

/-- Slots that are acquired for a group. -/
theorem Inv.acquireMany (inv : Inv L s) {i : Nat} {refused : Nat} {w : Work} (count : Nat)
    (expiresAt now : Time) (phase : (s.txs i).Dispatches refused w) (lock : MayLock s i) :
    Inv L { s with
      sem := acquireManyRow count L expiresAt now s.sem
      semLock := some i
      txs := s.txs.set i (.dispatching
        (refused + ((count : Int) - acquirableCount count L s.sem).toNat) w) } := by
  obtain ⟨value, limit, -, id⟩ := acquireManyRow_slots count L expiresAt now s.sem
  have limited := inv.limit
  unfold acquirableCount reconciledAvailable at value
  refine inv.dispatchStep phase lock limit (id ▸ inv.numbered) ?_ ?_ ?_
  · intro free
    omega
  · intro used
    omega
  · intro some
    unfold acquirableCount reconciledAvailable at some
    omega

/-- A transaction that has the semaphore's lock moves. -/
theorem Inv.heldStep (inv : Inv L s) {i : Nat} (held : s.semLock = some i) {x : Phase}
    {sem : Semaphore} {nextId : Nat} (limit : sem.limit = L) (numbered : sem.id ≠ 0)
    (exhausted : x.Exhausted → sem.value + x.unreleased ≤ 0) (limited : x.Limited)
    (safe : 0 < sem.value - x.slack → ∀ b ∈ s.blocked,
      x.Pending b.id ∨ ∃ j, j ≠ i ∧ (s.txs j).Pending b.id) :
    Inv L { s with nextId := nextId, sem := sem, txs := s.txs.set i x } := by
  have moved := inv.lockedStep (.inr held) nextId limit numbered exhausted limited safe
  rw [← held] at moved
  exact moved

/-- A transaction that met no free slot goes on without one. -/
theorem Inv.usedUpStep (inv : Inv L s) {i : Nat} (held : s.semLock = some i)
    (used : s.sem.value ≤ 0) {x : Phase} {nextId : Nat} (slackless : 0 ≤ x.slack)
    (unreleased : x.unreleased = 0) (limited : x.Limited) :
    Inv L { s with nextId := nextId, txs := s.txs.set i x } := by
  refine inv.heldStep held inv.limit inv.numbered ?_ limited ?_
  · intro _
    omega
  · intro free
    omega

/-- The slack of a transaction is a number. -/
theorem Phase.slack_nonneg (x : Phase) : 0 ≤ x.slack := by
  cases x with
  | released w => exact Int.one_nonneg
  | consuming row w => exact Int.one_nonneg
  | _ => exact le_refl 0

/-! ### Releases -/

/-- The slot goes to the waiter that was locked. -/
theorem Inv.handoff (inv : Inv L s) {i : Nat} {row : BlockedExecution} (expiresAt now : Time)
    (phase : s.txs i = .handing row) (lock : MayLock s i)
    (accepted : (handoffReleasedClaimedSlotUpdate L expiresAt now).filter s.sem = true) :
    Inv L { s with
      sem := (handoffReleasedClaimedSlotUpdate L expiresAt now).run family.evaluationOrder s.sem
      semLock := some i
      txs := s.txs.set i (.done { locked := [row.id], removed := [row.id] }) } := by
  obtain ⟨hit, value, limit⟩ := handoffReleasedClaimedSlotUpdate_columns L expiresAt now
    family.evaluationOrder s.sem accepted
  have same := sameRow_handoffReleasedClaimedSlotUpdate L expiresAt now family.evaluationOrder s.sem
  have own := inv.limit
  refine inv.lockedStep lock _ limit (same.2 ▸ inv.numbered) ?_ trivial ?_
  · rintro (none | none)
    · exact absurd rfl none
    · exact absurd rfl none
  · intro free b mem
    have before : 0 < s.sem.value - (s.txs i).slack := by
      rw [value] at free
      unfold releasedAvailable at free
      simp only [phase, Phase.slack] at free ⊢
      omega
    refine (inv.safe_for lock before b mem).imp_left ?_
    rw [phase]
    exact fun here => List.mem_singleton.mpr (Eq.symm here)

/-- The slot goes back to the semaphore. -/
theorem Inv.release (inv : Inv L s) {i : Nat} {w : Work} (expiresAt now : Time)
    (phase : s.txs i = .releasing w) (lock : MayLock s i) :
    Inv L { s with
      sem := (semaphoreReleaseUpdate L expiresAt now).run family.evaluationOrder s.sem
      semLock := some i
      txs := s.txs.set i (.released w) } := by
  have value := semaphoreReleaseUpdate_value L expiresAt now family.evaluationOrder s.sem
  have same := sameRow_semaphoreReleaseUpdate L expiresAt now family.evaluationOrder s.sem
  have own := inv.limit
  unfold releasedAvailable at value
  refine inv.lockedStep lock _
    (semaphoreReleaseUpdate_limit L expiresAt now family.evaluationOrder s.sem)
    (same.2 ▸ inv.numbered) ?_ trivial ?_
  · intro exhausted
    -- the slot it gives back only makes up for the one it was short of
    have used := (inv.exhausted i (by rw [phase]; exact exhausted)).2
    rw [phase] at used
    simp only [Phase.unreleased] at used ⊢
    omega
  · intro free b mem
    have before : 0 < s.sem.value - (s.txs i).slack := by
      simp only [phase, Phase.slack] at free ⊢
      omega
    have safe := inv.safe_for lock before b mem
    rw [phase] at safe
    exact safe

/-- The second look found nothing: whatever is blocked is locked by someone who will come to
it. -/
theorem Inv.lookAgainNone (inv : Inv L s) {i : Nat} {w : Work} (phase : s.txs i = .released w)
    (selected : Selects (Sees s i) blockedOrder 1 []) :
    Inv L { s with txs := s.txs.set i (.done w) } := by
  have held : s.semLock = some i := inv.holding i (by rw [phase]; trivial)
  refine inv.heldStep held inv.limit inv.numbered ?_ trivial ?_
  · intro exhausted
    have used := (inv.exhausted i (by rw [phase]; exact exhausted)).2
    rw [phase] at used
    exact used
  · intro _ b mem
    have unseen : ¬ Sees s i b := fun seen =>
      absurd (selected.exhaustive Nat.one_pos b seen) List.not_mem_nil
    have safe := inv.pending_of_not_sees (.inr held) mem unseen
    rw [phase] at safe
    exact safe

/-- A release that found no waiter looks again. -/
theorem Inv.lookAgain (inv : Inv L s) {i : Nat} {w : Work} (phase : s.txs i = .released w)
    (row : BlockedExecution) :
    Inv L { s with
      txs := s.txs.set i (.consuming row { w with locked := row.id :: w.locked }) } := by
  have held : s.semLock = some i := inv.holding i (by rw [phase]; trivial)
  refine inv.heldStep held inv.limit inv.numbered ?_ trivial ?_
  · intro exhausted
    have used := (inv.exhausted i (by rw [phase]; exact exhausted)).2
    rw [phase] at used
    exact used
  · intro free b mem
    have safe := inv.safe_for (.inr held) (by rw [phase]; exact free) b mem
    rw [phase] at safe
    exact safe

theorem Work.added_of_remove {w : Work} {row : BlockedExecution}
    (added : (w.remove row).added ≠ []) : w.added ≠ [] := by
  intro none
  exact added (by simp only [Work.remove, none, List.filter_nil])

/-- The waiter that was found takes the slot back. -/
theorem Inv.consume (inv : Inv L s) {i : Nat} {row : BlockedExecution} {w : Work}
    (expiresAt now : Time) (phase : s.txs i = .consuming row w)
    (accepted : (consumeReleasedSemaphoreSlotUpdate L expiresAt now).filter s.sem = true) :
    Inv L { s with
      sem := (consumeReleasedSemaphoreSlotUpdate L expiresAt now).run family.evaluationOrder s.sem
      txs := s.txs.set i (.done (w.remove row)) } := by
  have held : s.semLock = some i := inv.holding i (by rw [phase]; trivial)
  obtain ⟨hit, value, limit⟩ := consumeReleasedSemaphoreSlotUpdate_columns L expiresAt now
    family.evaluationOrder s.sem accepted
  have same := sameRow_consumeReleasedSemaphoreSlotUpdate L expiresAt now
    family.evaluationOrder s.sem
  refine inv.heldStep held limit (same.2 ▸ inv.numbered) ?_ trivial ?_
  · intro exhausted
    have before : (Phase.consuming row w).Exhausted :=
      exhausted.imp_right Work.added_of_remove
    have used := (inv.exhausted i (by rw [phase]; exact before)).2
    rw [phase] at used
    simp only [Phase.unreleased] at used
    omega
  · intro free b mem
    rw [value] at free
    simp only [Phase.slack, Int.sub_zero] at free
    have safe := inv.safe_for (.inr held) (by rw [phase]; exact free) b mem
    rw [phase] at safe
    exact safe.imp_left (List.mem_cons_of_mem _)

/-! ### Promotions -/

/-- The next of the recovered slots goes to a waiter. -/
theorem Inv.promoteNext (positive : 0 < L) (inv : Inv L s) {i : Nat} {now : Time}
    {row : BlockedExecution} {pending : List BlockedExecution} {w : Work} (expiresAt stamp : Time)
    (phase : s.txs i = .promoting now (row :: pending) w) (lock : MayLock s i)
    (given : (acquireRow family L expiresAt stamp s.sem).1 = true) :
    Inv L { s with
      sem := (acquireRow family L expiresAt stamp s.sem).2
      semLock := some i
      txs := s.txs.set i (.promoting now pending (w.remove row)) } := by
  have takes := acquireRow_takes positive expiresAt stamp s.sem family inv.numbered
  obtain ⟨free_iff, less, -⟩ := takes.value_of_limit inv.limit positive
  have free := free_iff.mp given
  have taken := less given
  refine inv.lockedStep lock _ takes.limit (takes.id ▸ inv.numbered) ?_ trivial ?_
  · intro exhausted
    have before : (Phase.promoting now (row :: pending) w).Exhausted :=
      exhausted.imp_right Work.added_of_remove
    have used := (inv.exhausted i (by rw [phase]; exact before)).2
    rw [phase] at used
    simp only [Phase.unreleased] at used
    omega
  · intro _ b mem
    have safe := inv.safe_for lock (by rw [phase]; simp only [Phase.slack]; omega) b mem
    rw [phase] at safe
    refine safe.imp_left ?_
    rintro (here | removed)
    · rcases List.mem_cons.mp here with head | rest
      · exact .inr (by rw [head]; exact List.mem_cons_self)
      · exact .inl rest
    · exact .inr (List.mem_cons_of_mem _ removed)

/-- The next waiter of a recovery waits on. -/
theorem Inv.renewNext (positive : 0 < L) (inv : Inv L s) {i : Nat} {now : Time}
    {row : BlockedExecution} {pending : List BlockedExecution} {w : Work}
    (expiresAt stamp renewedUntil : Time)
    (lock : MayLock s i)
    (refused : (acquireRow family L expiresAt stamp s.sem).1 = false) :
    Inv L { s with
      sem := (acquireRow family L expiresAt stamp s.sem).2
      semLock := some i
      txs := s.txs.set i (.promoting now pending
        { w with renewed := (row.id, renewedUntil) :: w.renewed }) } := by
  have takes := acquireRow_takes positive expiresAt stamp s.sem family inv.numbered
  obtain ⟨-, -, none⟩ := takes.value_of_limit inv.limit positive
  have used := none refused
  refine inv.lockedStep lock _ takes.limit (takes.id ▸ inv.numbered) ?_ trivial ?_
  · intro _
    rw [used]
    exact le_refl 0
  · intro free
    rw [used] at free
    exact absurd free (lt_irrefl 0)

/-! ### Recoveries -/

/-- No more waiters are promoted than slots are free. -/
theorem length_promotedRows (positive : 0 < L) (releaseCount : Nat) (rows : List BlockedExecution)
    (sem : Semaphore) :
    ((promotedRows releaseCount L rows sem).length : Int) =
      min (min (releaseCount : Int) (groupAvailable releaseCount L sem)) rows.length := by
  have nonneg : 0 ≤ groupAvailable releaseCount L sem := by
    unfold groupAvailable
    omega
  simp only [promotedRows, pySlice]
  rw [if_neg (by omega), List.length_take]
  omega

/-- The group settles: with every waiter read that could have been, the slots it has left over
are ones nobody unlocked is waiting for. -/
theorem Inv.recoverSettle (positive : 0 < L) (inv : Inv L s) {i : Nat} {releaseCount : Nat}
    {rows : List BlockedExecution} (expiresAt now : Time)
    (phase : s.txs i = .recovering releaseCount rows) (lock : MayLock s i)
    (complete : SelectionComplete s i) :
    Inv L { s with
      sem := groupReleaseRow L (groupAvailable releaseCount L s.sem)
        (promotedRows releaseCount L rows s.sem).length expiresAt now s.sem
      semLock := some i
      txs := s.txs.set i (.done {
        locked := rows.map BlockedExecution.id
        removed := (promotedRows releaseCount L rows s.sem).map BlockedExecution.id }) } := by
  have count := length_promotedRows positive releaseCount rows s.sem
  have limited : rows.length ≤ releaseCount := by
    have limited := inv.limited i
    rw [phase] at limited
    exact limited
  have own := inv.limit
  refine inv.lockedStep lock _ rfl inv.numbered ?_ trivial ?_
  · rintro (none | none)
    · exact absurd rfl none
    · exact absurd rfl none
  · intro free b mem
    simp only [groupReleaseRow, Phase.slack, Int.sub_zero] at free
    -- a slot is left over, so every row it selected is promoted
    have all : promotedRows releaseCount L rows s.sem = rows := by
      have whole : (promotedRows releaseCount L rows s.sem).length = rows.length := by omega
      refine (List.take_prefix _ rows).sublist.eq_of_length ?_
      exact whole
    rw [all] at free ⊢
    simp only [SelectionComplete, phase] at complete
    rcases complete with full | seen
    · unfold groupAvailable at free
      have before : 0 < s.sem.value - (s.txs i).slack := by
        rw [phase]
        simp only [Phase.slack]
        omega
      have safe := inv.safe_for lock before b mem
      rw [phase] at safe
      exact safe
    · by_cases sees : Sees s i b
      · exact .inl (List.mem_map_of_mem (seen b sees))
      · have safe := inv.pending_of_not_sees lock mem sees
        rw [phase] at safe
        exact safe.imp_left fun none => absurd none List.not_mem_nil

/-- Every statement keeps the invariant; a recovery only when its selection was complete. -/
theorem Inv.step (positive : 0 < L) {t : State} {action : Action} (inv : Inv L s)
    (step : Step family L s action t)
    (complete : ∀ i, action = .recoverSettle i → SelectionComplete s i) : Inv L t := by
  cases step with
  | acquire i expiresAt now phase lock => exact inv.acquire positive expiresAt now phase lock
  | acquireMany i count expiresAt now phase lock =>
      exact inv.acquireMany count expiresAt now phase lock
  | block i phase row fresh =>
      have used := inv.exhausted i (by rw [phase]; exact .inl (Nat.succ_pos _))
      rw [phase] at used
      exact inv.usedUpStep used.1 (by simpa only [Phase.unreleased, Int.add_zero] using used.2)
        (Phase.slack_nonneg _) rfl trivial
  | discard i phase =>
      have used := inv.exhausted i (by rw [phase]; exact .inl (Nat.succ_pos _))
      rw [phase] at used
      exact inv.usedUpStep used.1 (by simpa only [Phase.unreleased, Int.add_zero] using used.2)
        (Phase.slack_nonneg _) rfl trivial
  | lookNone i phase selected =>
      refine inv.selectStep phase (fun held => held rfl) ?_ ?_ trivial rfl
      · exact fun id mem => absurd mem List.not_mem_nil
      · rintro (none | none) <;> exact none rfl
  | look i phase row selected =>
      refine inv.selectStep phase id ?_ ?_ trivial rfl
      · exact fun id mem => (List.mem_singleton.mp mem).symm
      · rintro (none | none) <;> exact none rfl
  | handoff i expiresAt now phase lock accepted =>
      exact inv.handoff expiresAt now phase lock accepted
  | handoffRefused i expiresAt now phase lock refused =>
      -- refused only below no slot at all
      have short : ¬ s.sem.limit - L - 1 < s.sem.value := of_decide_eq_false refused
      have own := inv.limit
      refine inv.lockedStep lock _ inv.limit inv.numbered ?_ trivial ?_
      · intro _
        simp only [Phase.unreleased]
        omega
      · intro free
        simp only [Phase.slack] at free
        omega
  | release i expiresAt now phase lock => exact inv.release expiresAt now phase lock
  | lookAgainNone i phase selected => exact inv.lookAgainNone phase selected
  | lookAgain i phase row selected => exact inv.lookAgain phase row
  | consume i expiresAt now phase accepted => exact inv.consume expiresAt now phase accepted
  | consumeRefused i expiresAt now phase refused =>
      have held : s.semLock = some i := inv.holding i (by rw [phase]; trivial)
      have short : ¬ 0 < s.sem.value := of_decide_eq_false refused
      exact inv.usedUpStep held (not_lt.mp short) (Phase.slack_nonneg _) rfl trivial
  | promoteSelect i phase now batchSize rows selected =>
      refine inv.selectStep phase ?_ (fun id mem => .inl mem) ?_ trivial rfl
      · rintro (none | none) <;> exact none rfl
      · rintro (none | none) <;> exact none rfl
  | promoteNext i expiresAt stamp phase lock given =>
      exact inv.promoteNext positive expiresAt stamp phase lock given
  | renewNext i expiresAt stamp renewedUntil phase lock refused =>
      exact inv.renewNext positive expiresAt stamp renewedUntil lock refused
  | recoverSelect i phase releaseCount rows selected =>
      refine inv.selectStep phase id (fun id mem => mem) ?_ selected.limited rfl
      rintro (none | none) <;> exact none rfl
  | recoverSettle i expiresAt now phase lock =>
      exact inv.recoverSettle positive expiresAt now phase lock (complete i rfl)
  | commit i finished => exact inv.commit finished

end Steps

/-! ## No stranded waiter -/

/-- A slot is free and a waiter blocked. -/
def Stranded (s : State) : Prop := 0 < s.sem.value ∧ s.blocked ≠ []

/-- No transaction is under way. -/
def Quiet (s : State) : Prop := (∀ i, s.txs i = .idle) ∧ s.semLock = none

/-- A semaphore row of the limit, numbered as the database numbers its rows, and no waiter
unless every slot is taken. -/
structure Start (L : Int) (s : State) : Prop where
  quiet : Quiet s
  limit : s.sem.limit = L
  numbered : s.sem.id ≠ 0
  unblocked : s.blocked ≠ [] → s.sem.value = 0

theorem Inv.of_start {L : Int} {s : State} (start : Start L s) : Inv L s where
  limit := start.limit
  numbered := start.numbered
  holding i held := by
    rw [start.quiet.1 i] at held
    exact held.elim
  locked i _ id mem := by
    rw [start.quiet.1 i] at mem
    exact absurd mem List.not_mem_nil
  exhausted i left := by
    rw [start.quiet.1 i] at left
    exact left.elim (fun none => absurd rfl none) (fun none => absurd rfl none)
  limited i := by
    rw [start.quiet.1 i]
    trivial
  safe := by
    intro free b mem
    have slackless : slack s = 0 := by simp only [slack, start.quiet.2]
    have used := start.unblocked (List.ne_nil_of_mem mem)
    omega

/-- Where it holds and nobody works, nobody is stranded. -/
theorem Inv.not_stranded {L : Int} {s : State} (inv : Inv L s) (quiet : Quiet s) :
    ¬ Stranded s := by
  rintro ⟨free, waiting⟩
  obtain ⟨b, mem⟩ := List.exists_mem_of_ne_nil _ waiting
  have slackless : slack s = 0 := by simp only [slack, quiet.2]
  obtain ⟨i, pending⟩ := inv.safe (by omega) b mem
  rw [quiet.1 i] at pending
  exact pending

/-- Limit one, the slot taken. -/
def oneSlotTaken (blocked : List BlockedExecution) : State where
  blocked := blocked
  nextId := 2
  sem := newSemaphore "k" 1 1 180000000 0 1
  semLock := none
  txs _ := .idle

theorem oneSlotTaken_start (blocked : List BlockedExecution) : Start 1 (oneSlotTaken blocked) :=
  ⟨⟨fun _ => rfl, rfl⟩, rfl, Nat.one_ne_zero, fun _ => rfl⟩

/-- A waiter of the key. -/
def waiter (id : Nat) : BlockedExecution := ⟨id, 8, "default", "default", 0, "k", 180000000⟩

/-- Nothing is selected where nothing waits. -/
theorem selects_of_none (n : Nat) : Selects (Sees (oneSlotTaken []) 0) blockedOrder n [] where
  sound _ mem := absurd mem List.not_mem_nil
  nodup := List.nodup_nil
  limited := Nat.zero_le n
  exhaustive _ _ sees := sees.1.elim And.left id
  first _ mem := absurd mem List.not_mem_nil

theorem selects_of_one :
    Selects (Sees (oneSlotTaken [waiter 1]) 0) blockedOrder 1 [waiter 1] where
  sound _ mem := ⟨.inl ⟨mem, List.not_mem_nil⟩, fun _ _ => List.not_mem_nil⟩
  nodup := List.nodup_singleton _
  limited := le_refl 1
  exhaustive less := absurd less (lt_irrefl 1)
  first _ _ _ sees absent :=
    absurd (sees.1.elim And.left fun added => absurd added List.not_mem_nil) absent

/-- The steps of dispatches, releases of finished jobs and promotions, and their commits. -/
def Action.NotRecovery : Action → Prop
  | .recoverSelect | .recoverSettle _ => False
  | _ => True

/-- Once every transaction has committed, no waiter is left beside a free slot. -/
theorem no_stranded_waiter {family : BackendFamily} {L : Int} (positive : 0 < L)
    {start s : State} (initial : Start L start)
    (run : Reach (fun s t => ∃ action, action.NotRecovery ∧ Step family L s action t) start s)
    (quiet : Quiet s) : ¬ Stranded s := by
  refine Inv.not_stranded (L := L) ?_ quiet
  refine Reach.invariant (fun {s t} inv next => ?_) (Inv.of_start initial) run
  obtain ⟨action, ordinary, step⟩ := next
  refine inv.step positive step ?_
  rintro i rfl
  exact ordinary.elim

/-- A finished job has found the waiter to hand its slot to when a dispatch is refused one and blocks
its job; the hand-off is made after that, and the waiter that came late finds no slot free. -/
theorem no_stranded_waiter_after_handoff :
    ∃ s, Reach (fun s t => ∃ action, action.NotRecovery ∧ Step .postgresql 1 s action t)
      (oneSlotTaken [waiter 1]) s ∧ s.blocked = [waiter 2] ∧ Quiet s ∧ ¬ Stranded s := by
  have handing : Reach (fun s t => ∃ action, action.NotRecovery ∧ Step .postgresql 1 s action t)
      (oneSlotTaken [waiter 1]) _ :=
    .single ⟨.release, trivial, .look (oneSlotTaken [waiter 1]) 0 rfl (waiter 1) selects_of_one⟩
  have refused := handing.tail
    ⟨.dispatch, trivial, .acquire _ 1 180000000 1 (.inl ⟨rfl, rfl, rfl⟩) (.inl rfl)⟩
  have blocked := refused.tail ⟨.dispatch, trivial, .block _ 1 rfl (waiter 2) rfl⟩
  have committed := blocked.tail ⟨.commit, trivial, .commit _ 1 rfl⟩
  have handed := committed.tail
    ⟨.release, trivial, .handoff _ 0 180000001 1 rfl (.inl rfl) (by decide)⟩
  have finished := handed.tail ⟨.commit, trivial, .commit _ 0 trivial⟩
  refine ⟨_, finished, by decide, ?quiet,
    no_stranded_waiter (by decide) (oneSlotTaken_start _) finished ?quiet⟩
  refine ⟨fun j => ?_, rfl⟩
  by_cases first : j = 0 <;> by_cases second : j = 1 <;>
    simp [Pool.set, Function.update_apply, first, second, oneSlotTaken]

/-- The same with recoveries of crashed claims, as long as each of them, when it takes the
semaphore's lock, has read as many waiters as it has slots, or all that nobody else has
locked. -/
theorem no_stranded_waiter_of_complete_selections {family : BackendFamily} {L : Int}
    (positive : 0 < L) {start s : State} (initial : Start L start)
    (run : Reach (fun s t => ∃ action, Step family L s action t ∧
      ∀ i, action = .recoverSettle i → SelectionComplete s i) start s)
    (quiet : Quiet s) : ¬ Stranded s := by
  refine Inv.not_stranded (L := L) ?_ quiet
  refine Reach.invariant (fun {s t} inv next => ?_) (Inv.of_start initial) run
  obtain ⟨action, step, complete⟩ := next
  exact inv.step positive step complete

/-- A crashed claim's slot goes to the waiter its recovery selected, though another job was blocked
before the recovery took the semaphore's lock. -/
theorem no_stranded_waiter_after_recovery :
    ∃ s, Reach (fun s t => ∃ action, Step .postgresql 1 s action t ∧
        ∀ i, action = .recoverSettle i → SelectionComplete s i) (oneSlotTaken [waiter 1]) s ∧
      s.blocked = [waiter 2] ∧ Quiet s ∧ ¬ Stranded s := by
  have recovering : Reach (fun s t => ∃ action, Step .postgresql 1 s action t ∧
        ∀ i, action = .recoverSettle i → SelectionComplete s i) (oneSlotTaken [waiter 1]) _ :=
    .single ⟨_, .recoverSelect (oneSlotTaken [waiter 1]) 0 rfl 1 [waiter 1] selects_of_one,
      fun i eq => by cases eq⟩
  have refused := recovering.tail ⟨.dispatch,
    .acquire _ 1 180000000 1 (.inl ⟨rfl, rfl, rfl⟩) (.inl rfl), fun i eq => by cases eq⟩
  have blocked := refused.tail
    ⟨.dispatch, .block _ 1 rfl (waiter 2) rfl, fun i eq => by cases eq⟩
  have committed := blocked.tail ⟨.commit, .commit _ 1 rfl, fun i eq => by cases eq⟩
  have settled := committed.tail
    ⟨.recoverSettle 0, .recoverSettle _ 0 180000002 2 rfl (.inl rfl), ?_⟩
  · have finished := settled.tail ⟨.commit, .commit _ 0 trivial, fun i eq => by cases eq⟩
    refine ⟨_, finished, by decide, ?quiet, no_stranded_waiter_of_complete_selections (by decide)
      (oneSlotTaken_start _) finished ?quiet⟩
    refine ⟨fun j => ?_, rfl⟩
    by_cases first : j = 0 <;> by_cases second : j = 1 <;>
      simp [Pool.set, Function.update_apply, first, second, oneSlotTaken]
  · rintro i ⟨⟩
    exact .inl rfl

/-- A recovery reads the waiters of a key and finds none; a dispatch is refused a slot, blocks
its job and commits; the recovery then gives its slot back and commits. -/
theorem recovery_strands_late_waiter :
    Start 1 (oneSlotTaken []) ∧
      ∃ s, Reach (fun s t => ∃ action, action ≠ .release ∧ Step .postgresql 1 s action t)
        (oneSlotTaken []) s ∧ Quiet s ∧ Stranded s := by
  have recovering : Reach (fun s t => ∃ action, action ≠ .release ∧ Step .postgresql 1 s action t)
      (oneSlotTaken []) _ :=
    .single ⟨_, by decide, .recoverSelect (oneSlotTaken []) 0 rfl 1 [] (selects_of_none 1)⟩
  have refused := recovering.tail
    ⟨.dispatch, by decide, .acquire _ 1 180000000 1 (.inl ⟨rfl, rfl, rfl⟩) (.inl rfl)⟩
  have blocked := refused.tail ⟨.dispatch, by decide, .block _ 1 rfl (waiter 2) rfl⟩
  have committed := blocked.tail ⟨.commit, by decide, .commit _ 1 rfl⟩
  have settled := committed.tail
    ⟨.recoverSettle 0, by decide, .recoverSettle _ 0 180000002 2 rfl (.inl rfl)⟩
  have finished := settled.tail ⟨.commit, by decide, .commit _ 0 trivial⟩
  refine ⟨oneSlotTaken_start [], _, finished, ⟨?_, rfl⟩, by decide, by decide⟩
  intro j
  by_cases first : j = 0 <;> by_cases second : j = 1 <;>
    simp [Pool.set, Function.update_apply, first, second, oneSlotTaken]

end DjQueue.Waiters
