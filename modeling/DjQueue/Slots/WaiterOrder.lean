import DjQueue.Relational.Interleaving
import DjQueue.Slots.WaiterRows
import Mathlib.Data.List.Pairwise

/-!
# The place of a waiter

The serialized `promote_expired_blocked_jobs` deletes its batch before it renews those that got no
slot, on new rows at the end of the table and in the order they expired; elsewhere it renews them in
place.  So do runs of it, of hand-offs and of releases keep two waiters in order, as long as each
step that takes the first one's row also takes the second one's after it.
-/

namespace DjQueue

open Relational

/-! ## Sessions that leave the waiters on their rows -/

/-- Of numbered rows, those left stand as they did. -/
def StaysFrom (w w' : World) : Prop :=
  WaitersNumbered w.db.blocked → Stays w.db.blocked w'.db.blocked

/-- A program that only deletes waiters. -/
def KeepsRows {α : Type} (x : Op α) : Prop := Relates StaysFrom x

namespace KeepsRows

variable {α β : Type}

theorem of_spares {x : Op α} (spares : Spares Db.blocked x) : KeepsRows x := by
  intro w a w' run numbered
  have same : w'.db.blocked = w.db.blocked := spares _ _ _ run
  rw [same]
  exact .refl numbered

theorem pure (a : α) : KeepsRows (Pure.pure a : Op α) := of_spares (.pure a)

theorem bind {x : Op α} {f : α → Op β} (first : KeepsRows x) (second : ∀ a, KeepsRows (f a)) :
    KeepsRows (x >>= f) := by
  refine Relates.bind (R := StaysFrom) (fun _ _ _ before after numbered => ?_) first second
  exact (before numbered).trans (after (before numbered).numbered)

theorem deleteRowsWhere (p : BlockedExecution → Bool) :
    KeepsRows (deleteRowsWhere .blocked p) := by
  intro w n w' run numbered
  rw [(of_run_deleteRowsWhere run).2]
  exact .deleteWhere numbered p

theorem consumeSelectedRows (env : Env) (pk : β → Nat) (rows : List β) :
    KeepsRows (consumeSelectedRows env .blocked pk rows) := by
  unfold DjQueue.consumeSelectedRows
  split
  · induction rows with
    | nil => exact pure _
    | cons row rows ih => exact bind (deleteRowsWhere _) fun _ => bind ih fun _ => pure _
  · exact bind (deleteRowsWhere _) fun _ => pure _

theorem releaseRecoveredConcurrencyGroup (env : Env) (key : String) (releaseCount : Nat)
    (limit duration : Int) :
    KeepsRows (releaseRecoveredConcurrencyGroup env key releaseCount limit duration) := by
  refine bind (of_spares (.of_reads Reads.timezoneNow)) fun now =>
    bind (of_spares (.ofExcept _)) fun expiresAt =>
    bind (of_spares (.of_reads Reads.getDb)) fun db =>
    bind (of_spares (.ensureStateRowsBelongToBackend (m := .blocked) _ _)) fun _ => ?_
  split
  · exact pure _
  · exact bind (consumeSelectedRows env _ _) fun promoted =>
      bind (of_spares (.of_reads Reads.timezoneNow)) fun stamp =>
      bind (of_spares (.of_reads (Reads.ensureFits _ _))) fun _ =>
      bind (of_spares (.saveSemaphore (fun _ _ => rfl) _ _)) fun _ =>
      bind (of_spares (.ofExcept _)) fun _ =>
      bind (of_spares (.bulkCreateReadyExecutions (apart_blocked (by decide)) _ _)) fun _ => pure _

/-- Where the rows are locked an expired waiter is promoted, failed or renewed on its own row. -/
theorem promoteExpiredBlockedJob (env : Env) (now : Time) (blocked : BlockedExecution) (job : Job)
    (cache : TaskSettings) :
    KeepsRows (promoteExpiredBlockedJob env now false blocked job cache) := by
  unfold DjQueue.promoteExpiredBlockedJob
  split
  · refine bind (bind (consumeSelectedRows env _ _) fun rows => ?_) fun _ => pure _
    split
    · exact pure _
    · exact bind (of_spares (.ensureJobIdsHaveNoOtherExecutionState _ _)) fun _ =>
        bind (of_spares (.createRow (m := .failed) (apart_blocked (by decide)) _)) fun _ => pure _
  · exact of_spares (.throw _)
  · refine bind (of_spares (.semaphoreAcquire (fun _ _ => rfl) _ _ _ _)) fun acquired => ?_
    split
    · refine bind (bind ?_ fun _ => of_spares (.createReadyExecution (apart_blocked (by decide))
        _ _ _ _ _ _)) fun _ => pure _
      exact bind (deleteRowsWhere _) fun _ => pure _
    · refine bind (of_spares (.ofExcept _)) fun expiresAt =>
        bind (fun w u w' run numbered => ?_) fun _ => pure _
      unfold renewBlockedExecution at run
      rw [if_neg Bool.false_ne_true] at run
      rw [of_run_modifyDb run]
      exact .renew numbered _ _

/-- The loop that settles expired waiters in place. -/
theorem promoteExpiredLoop (env : Env) (now : Time) :
    ∀ (rows : List (BlockedExecution × Job)) (cache : TaskSettings),
      KeepsRows (promoteExpiredLoop env now false rows cache)
  | [], _ => pure _
  | (blocked, job) :: rest, cache =>
      bind (promoteExpiredBlockedJob env now blocked job cache) fun result =>
        bind (promoteExpiredLoop env now rest result.2) fun _ => pure _

end KeepsRows

/-! ## Renewals on a new row -/

/-- The rows a serialized renewal of the batch `l` leaves: those it found, and the new rows of the
waiters that got no slot, in the order of the batch. -/
structure Renews (l : List BlockedExecution) (t t' : Table BlockedExecution)
    (pairs : List (BlockedExecution × BlockedExecution)) : Prop where
  numbered : WaitersNumbered t'
  next : t.nextId ≤ t'.nextId
  rows : t'.rows = t.rows ++ pairs.map Prod.snd
  kept : (pairs.map Prod.fst).Sublist l
  same : ∀ p ∈ pairs, p.1.SameWaiter p.2
  later : ∀ p ∈ pairs, t.nextId ≤ p.2.id
  order : pairs.Pairwise (fun p q => p.2.id < q.2.id)

section Renewals

variable {env : Env} {now : Time} {w w' : World}

/-- One waiter of a serialized batch: it is gone, or back at the end. -/
theorem of_run_promoteExpiredBlockedJob {x : BlockedExecution × Job} {cache : TaskSettings}
    {result : WaiterOutcome × TaskSettings} (loaded : x.2.id = x.1.jobId)
    (run : Runs (promoteExpiredBlockedJob env now true x.1 x.2 cache) w result w') :
    w'.db.blocked = w.db.blocked ∨ ∃ mk : Nat → BlockedExecution, (∀ n, (mk n).id = n) ∧
      (∀ n, x.1.SameWaiter (mk n)) ∧ (∀ r ∈ w.db.blocked.rows, r.jobId ≠ x.1.jobId) ∧
      w'.db.blocked = w.db.blocked.insert mk := by
  unfold promoteExpiredBlockedJob at run
  split at run
  · refine .inl (Spares.bind (.bind (.pure _) fun rows => ?_)
      (fun _ => .pure _) _ _ _ run)
    split
    · exact .pure _
    · exact .bind (.ensureJobIdsHaveNoOtherExecutionState _ _) fun _ =>
        .bind (.createRow (m := .failed) (apart_blocked (by decide)) _) fun _ => .pure _
  · exact (Runs.of_throw run).elim
  · obtain ⟨acquired, w₁, asked, rest⟩ := Runs.of_bind run
    have kept : w₁.db.blocked = w.db.blocked :=
      Spares.semaphoreAcquire (fun _ _ => rfl) env _ _ _ _ _ _ asked
    rw [← kept]
    split at rest
    · exact .inl (Spares.bind (.bind (.pure ()) fun _ =>
        .createReadyExecution (apart_blocked (by decide)) _ _ _ _ _ _) (fun _ => .pure _) _ _ _ rest)
    · obtain ⟨expiresAt, w₂, added, rest₂⟩ := Runs.of_bind rest
      obtain ⟨-, -, rfl⟩ := of_run_addSeconds added
      obtain ⟨u, w₃, renewed, rest₃⟩ := Runs.of_bind rest₂
      rw [(Runs.of_pure rest₃).2]
      obtain ⟨own, fresh, again⟩ := of_run_createBlockedExecution renewed
      refine .inr ⟨_, ?_, ?_, ?_, again⟩
      · exact fun _ => rfl
      · exact fun _ => ⟨loaded, rfl, rfl, rfl⟩
      · intro r mem sameJob
        exact fresh r mem (sameJob.trans loaded.symm)

/-- The loop goes through the batch in its order, so the new rows stand in that order too. -/
theorem renews_of_promoteExpiredLoop : ∀ {rows : List (BlockedExecution × Job)}
    {cache : TaskSettings} {outcomes : List WaiterOutcome} {w : World},
    (∀ x ∈ rows, x.2.id = x.1.jobId) → WaitersNumbered w.db.blocked →
    Runs (promoteExpiredLoop env now true rows cache) w outcomes w' →
    ∃ pairs, Renews (rows.map Prod.fst) w.db.blocked w'.db.blocked pairs
  | [], cache, outcomes, w, _, numbered, run => by
      rw [(Runs.of_pure run).2]
      exact ⟨[], numbered, Nat.le_refl _, by simp, List.nil_sublist _, nofun, nofun, .nil⟩
  | x :: rows, cache, outcomes, w, loaded, numbered, run => by
      obtain ⟨result, w₁, head, rest⟩ := Runs.of_bind run
      obtain ⟨others, w₂, tail, rest⟩ := Runs.of_bind rest
      obtain ⟨-, rfl⟩ := Runs.of_pure rest
      have moved := of_run_promoteExpiredBlockedJob (x := x) (loaded x List.mem_cons_self) head
      have loaded := fun y mem => loaded y (List.mem_cons_of_mem x mem)
      rcases moved with same | ⟨mk, ids, waiter, fresh, inserted⟩
      · obtain ⟨pairs, renews⟩ := renews_of_promoteExpiredLoop loaded (by rw [same]; exact numbered)
          tail
        rw [same] at renews
        exact ⟨pairs, { renews with kept := renews.kept.cons _ }⟩
      · have numbered₁ : WaitersNumbered w₁.db.blocked := by
          rw [inserted]
          exact numbered.insert ids fun r mem => by rw [(waiter _).job]; exact fresh r mem
        obtain ⟨pairs, renews⟩ := renews_of_promoteExpiredLoop loaded numbered₁ tail
        have later : ∀ p ∈ pairs, w.db.blocked.nextId + 1 ≤ p.2.id := by
          intro p mem
          have bound := renews.later p mem
          rwa [inserted] at bound
        have next := renews.next
        rw [inserted, Table.nextId_insert] at next
        refine ⟨(x.1, mk w.db.blocked.nextId) :: pairs, renews.numbered, by omega, ?_,
          renews.kept.cons_cons _, ?_, ?_, ?_⟩
        · rw [renews.rows, inserted, Table.rows_insert, List.map_cons, List.append_assoc]
          rfl
        · intro p mem
          rcases List.mem_cons.mp mem with rfl | mem
          · exact waiter _
          · exact renews.same p mem
        · intro p mem
          rcases List.mem_cons.mp mem with rfl | mem
          · exact (ids _).ge
          · exact Nat.le_of_succ_le (later p mem)
        · refine List.pairwise_cons.mpr ⟨fun p mem => ?_, renews.order⟩
          rw [ids]
          exact later p mem

end Renewals

/-! ## Promoting expired waiters -/

/-- The waiters `promote_expired_blocked_jobs` looks at. -/
def expiredBatch (env : Env) (now : Time) (batchSize : Int) (db : Db) :
    List (BlockedExecution × Job) :=
  (selectRelatedJob (m := .blocked) db (orderBy expiredOrder (db.blocked.rows.filter (fun r =>
    r.backendAlias == env.config.backendAlias && r.expiresAt ≤ now)))).take batchSize.toNat

/-- Where the batch is deleted first: when `a` is in it, so is `b`, and `a` did not expire later. -/
def RenewedInOrder (env : Env) (now : Time) (batchSize : Int) (db : Db) (a b : JobId) : Prop :=
  env.config.family.usesSerializedWrites = true →
    ∀ x ∈ expiredBatch env now batchSize db, x.1.jobId = a →
      ∃ y ∈ expiredBatch env now batchSize db, y.1.jobId = b ∧ x.1.expiresAt ≤ y.1.expiresAt

section Promotion

variable {env : Env} {now : Time} {batchSize : Int} {db : Db} {w w' : World}

/-- The order of the expired is transitive. -/
theorem expiredOrder_trans {r s t : BlockedExecution} (first : expiredOrder r s = true)
    (second : expiredOrder s t = true) : expiredOrder r t = true := by
  simp only [expiredOrder, Bool.or_eq_true, Bool.and_eq_true, decide_eq_true_eq, beq_iff_eq] at *
  rcases first with first | ⟨same, first⟩ <;> rcases second with second | ⟨same', second⟩
  · exact .inl (Int.lt_trans first second)
  · exact .inl (same' ▸ first)
  · exact .inl (same ▸ second)
  · exact .inr ⟨same.trans same', blockedOrder_trans first second⟩

theorem expiredOrder_total (r s : BlockedExecution) :
    expiredOrder r s = true ∨ expiredOrder s r = true := by
  simp only [expiredOrder, Bool.or_eq_true, Bool.and_eq_true, decide_eq_true_eq, beq_iff_eq]
  rcases Int.lt_trichotomy r.expiresAt s.expiresAt with lt | same | gt
  · exact .inl (.inl lt)
  · rcases blockedOrder_total r s with first | second
    · exact .inl (.inr ⟨same, first⟩)
    · exact .inr (.inr ⟨same.symm, second⟩)
  · exact .inr (.inl gt)

theorem pairwise_expiredBatch : ((expiredBatch env now batchSize db).map Prod.fst).Pairwise
    (fun r s => expiredOrder r s = true) := by
  refine List.pairwise_map.mpr (List.Pairwise.sublist (List.take_sublist _ _) ?_)
  exact pairwise_selectRelatedJob (m := .blocked) (R := fun r s => expiredOrder r s = true)
    (pairwise_orderBy expiredOrder (fun _ _ _ => expiredOrder_trans) expiredOrder_total _)

/-- The rows of a batch are blocked rows with their jobs. -/
theorem of_mem_expiredBatch {x : BlockedExecution × Job}
    (mem : x ∈ expiredBatch env now batchSize db) :
    x.1 ∈ db.blocked.rows ∧ x.2.id = x.1.jobId := by
  obtain ⟨r, inside, eq⟩ := List.mem_filterMap.mp (List.mem_of_mem_take mem)
  obtain ⟨job, found, rfl⟩ := Option.map_eq_some_iff.mp eq
  exact ⟨(List.mem_filter.mp (mem_orderBy.mp inside)).1, (mem_of_findJob found).2⟩

theorem ids_expiredBatch (numbered : WaitersNumbered db.blocked) :
    ((expiredBatch env now batchSize db).map (fun x => x.1.id)).Nodup := by
  have fewer := selectRelatedJob_fst_sublist db (m := .blocked) (orderBy expiredOrder
    (db.blocked.rows.filter (fun r => r.backendAlias == env.config.backendAlias &&
      r.expiresAt ≤ now)))
  have nodup : ((orderBy expiredOrder (db.blocked.rows.filter (fun r =>
      r.backendAlias == env.config.backendAlias && r.expiresAt ≤ now))).map
        BlockedExecution.id).Nodup :=
    ((orderBy_perm _ _).map _).nodup_iff.mpr (numbered.ids.sublist (List.filter_sublist.map _))
  have ids := nodup.sublist (fewer.map BlockedExecution.id)
  rw [List.map_map] at ids
  exact ids.sublist ((List.take_sublist _ _).map _)

/-- What a promotion leaves, on the path that deletes its batch and on the others. -/
theorem of_run_promoteExpiredBlockedJobs {jobs : List Job} (numbered : WaitersNumbered w.db.blocked)
    (run : Runs (promoteExpiredBlockedJobs env batchSize) w jobs w') :
    (env.config.family.usesSerializedWrites = false ∧ Stays w.db.blocked w'.db.blocked) ∨
      env.config.family.usesSerializedWrites = true ∧ ∃ pairs,
        Renews ((expiredBatch env (w.clock 0) batchSize w.db).map Prod.fst)
          (without (m := .blocked) w.db.blocked
            ((expiredBatch env (w.clock 0) batchSize w.db).map (fun x => x.1.id)))
          w'.db.blocked pairs := by
  obtain ⟨now, w₁, read, rest⟩ := Runs.of_bind run
  cases read
  obtain ⟨db, w₂, got, rest⟩ := Runs.of_bind (Runs.of_atomic rest)
  obtain ⟨rfl, rfl⟩ := of_run_getDb got
  obtain ⟨rows, w₃, sliced, rest⟩ := Runs.of_bind rest
  obtain ⟨isBatch, same₃⟩ := of_run_sliceTo sliced
  rw [same₃] at rest
  obtain ⟨u, w₄, checked, rest⟩ := Runs.of_bind rest
  rw [(of_run_ensureStateRowsBelongToBackend (m := .blocked) checked).1] at rest
  obtain ⟨consumed, w₅, taken, rest⟩ := Runs.of_bind rest
  obtain ⟨outcomes, w₆, looped, rest⟩ := Runs.of_bind rest
  rw [(Runs.of_pure rest).2]
  have isBatch : rows = expiredBatch env (w.clock 0) batchSize w.db := isBatch
  rw [isBatch] at taken
  cases serialized : env.config.family.usesSerializedWrites with
  | false =>
      rw [serialized] at taken looped
      obtain ⟨rfl, rfl⟩ := Runs.of_pure taken
      have stays := KeepsRows.promoteExpiredLoop env _ _ _ _ _ _ looped
      exact .inl ⟨rfl, stays numbered⟩
  | true =>
      rw [serialized] at taken looped
      obtain ⟨rfl, db₅⟩ := of_run_consumeSelectedRows (m := .blocked)
        (fun x mem => ⟨x.1, (of_mem_expiredBatch mem).1, rfl⟩) (ids_expiredBatch numbered) taken
      have blocked₅ : w₅.db.blocked = without (m := .blocked) w.db.blocked
          ((expiredBatch env (w.clock 0) batchSize w.db).map (fun x => x.1.id)) := by
        rw [db₅]
        rfl
      have numbered₅ : WaitersNumbered w₅.db.blocked := by
        rw [blocked₅]
        exact numbered.deleteWhere _
      obtain ⟨pairs, renews⟩ := renews_of_promoteExpiredLoop
        (fun x mem => (of_mem_expiredBatch mem).2) numbered₅ looped
      rw [blocked₅] at renews
      exact .inr ⟨rfl, pairs, renews⟩

/-- Two elements of a list stand in one order or the other. -/
theorem either_of_pairwise {α : Type} {R : α → α → Prop} {l : List α} (sorted : l.Pairwise R)
    {x y : α} (mem : x ∈ l) (mem' : y ∈ l) (ne : x ≠ y) : R x y ∨ R y x := by
  have : Std.Symm (fun x y => R x y ∨ R y x) := ⟨fun _ _ => Or.symm⟩
  exact (sorted.imp Or.inl : l.Pairwise (fun x y => R x y ∨ R y x)).forall mem mem' ne

/-- A serialized batch without `a` leaves `a` on its row. -/
theorem Renews.passes {batch : List (BlockedExecution × Job)} {t t' : Table BlockedExecution}
    {pairs : List (BlockedExecution × BlockedExecution)} (there : ∀ x ∈ batch, x.1 ∈ t.rows)
    (renews : Renews (batch.map Prod.fst)
      (without (m := .blocked) t (batch.map (fun x => x.1.id))) t' pairs) :
    Passes (fun job => ∃ x ∈ batch, x.1.jobId = job) t t' := by
  refine ⟨renews.numbered, renews.next, fun r' mem => .inl ?_⟩
  rw [renews.rows] at mem
  rcases List.mem_append.mp mem with old | new
  · exact ⟨r', List.mem_of_mem_filter old, .refl r', .inl rfl⟩
  · obtain ⟨p, inside, rfl⟩ := List.mem_map.mp new
    obtain ⟨x, inBatch, isRow⟩ := List.mem_map.mp (renews.kept.subset
      (List.mem_map.mpr ⟨p, inside, rfl⟩))
    exact ⟨p.1, isRow ▸ there x inBatch, renews.same p inside,
      .inr ⟨renews.later p inside, x, inBatch, by rw [isRow]⟩⟩

/-- A waiter of a serialized batch that is still blocked has a new row. -/
theorem Renews.of_mem {batch : List (BlockedExecution × Job)} {t t' : Table BlockedExecution}
    {pairs : List (BlockedExecution × BlockedExecution)} (numbered : WaitersNumbered t)
    (there : ∀ x ∈ batch, x.1 ∈ t.rows)
    (renews : Renews (batch.map Prod.fst)
      (without (m := .blocked) t (batch.map (fun x => x.1.id))) t' pairs)
    {x : BlockedExecution × Job} (inBatch : x ∈ batch) {r' : BlockedExecution}
    (mem : r' ∈ t'.rows) (same : r'.jobId = x.1.jobId) : (x.1, r') ∈ pairs := by
  rw [renews.rows] at mem
  rcases List.mem_append.mp mem with old | new
  · obtain ⟨old, kept⟩ := List.mem_filter.mp old
    rw [numbered.eq_of_job old (there x inBatch) same] at kept
    have gone : (batch.map (fun x => x.1.id)).contains x.1.id = true :=
      List.contains_iff_mem.mpr (List.mem_map.mpr ⟨x, inBatch, rfl⟩)
    change (!(batch.map (fun x => x.1.id)).contains x.1.id) = true at kept
    rw [gone] at kept
    cases kept
  · obtain ⟨p, inside, rfl⟩ := List.mem_map.mp new
    obtain ⟨y, inBatch', isRow⟩ := List.mem_map.mp (renews.kept.subset
      (List.mem_map.mpr ⟨p, inside, rfl⟩))
    have job : p.1.jobId = x.1.jobId := (renews.same p inside).job.symm.trans same
    have row : p.1 = x.1 :=
      numbered.eq_of_job (isRow ▸ there y inBatch') (there x inBatch) job
    rw [← row]
    exact inside

/-- Promoting expired waiters keeps two in order. -/
theorem PickedBefore.promote {a b : JobId} {jobs : List Job} (before : PickedBefore w.db a b)
    (numbered : WaitersNumbered w.db.blocked)
    (run : Runs (promoteExpiredBlockedJobs env batchSize) w jobs w')
    (inOrder : RenewedInOrder env (w.clock 0) batchSize w.db a b) (first : w'.db.isBlocked a)
    (second : w'.db.isBlocked b) : PickedBefore w'.db a b := by
  rcases of_run_promoteExpiredBlockedJobs numbered run with
    ⟨-, stays⟩ | ⟨serialized, pairs, renews⟩
  · have passes : Passes (fun _ => False) _ _ := stays.passes
    exact before.passes numbered passes id first second
  · have there := fun x (mem : x ∈ expiredBatch env (w.clock 0) batchSize w.db) =>
      (of_mem_expiredBatch mem).1
    by_cases touched : ∃ x ∈ expiredBatch env (w.clock 0) batchSize w.db, x.1.jobId = a
    · obtain ⟨x, inBatch, rfl⟩ := touched
      obtain ⟨y, inBatch', rfl, expires⟩ := inOrder serialized x inBatch rfl
      obtain ⟨r, mem, s, mem', job, job', backend, key, priority, order, different⟩ := before
      obtain rfl := numbered.eq_of_job mem (there x inBatch) job
      obtain rfl := numbered.eq_of_job mem' (there y inBatch') job'
      obtain ⟨r', back, sameJob⟩ := first
      obtain ⟨s', back', sameJob'⟩ := second
      have p := renews.of_mem numbered there inBatch back sameJob
      have q := renews.of_mem numbered there inBatch' back' sameJob'
      have earlier := (blockedOrder_of_priority priority).mp order
      -- the new rows stand in the order of the batch
      have batched : pairs.Pairwise (fun p q => expiredOrder p.1 q.1 = true) :=
        List.pairwise_map.mp (pairwise_expiredBatch.sublist renews.kept)
      have either := either_of_pairwise (batched.and renews.order) p q
        (fun eq => different (by rw [(Prod.mk.inj eq).1]))
      have waiter := renews.same _ p
      have waiter' := renews.same _ q
      have samePriority : r'.priority = s'.priority := by
        rw [waiter.priority, waiter'.priority, priority]
      rcases either with ⟨-, later⟩ | ⟨reversed, -⟩
      · refine ⟨r', back, s', back', sameJob, sameJob', ?_, ?_, samePriority,
          (blockedOrder_of_priority samePriority).mpr (Nat.le_of_lt later), Nat.ne_of_lt later⟩
        · rw [waiter.backend, waiter'.backend, backend]
        · rw [waiter.key, waiter'.key, key]
      · simp only [expiredOrder, Bool.or_eq_true, Bool.and_eq_true, decide_eq_true_eq,
          beq_iff_eq] at reversed
        rcases reversed with less | ⟨-, order'⟩
        · exact absurd less (Int.not_lt.mpr expires)
        · have back := (blockedOrder_of_priority priority.symm).mp order'
          omega
    · exact before.passes numbered (renews.passes there) touched first second

end Promotion

/-! ## Runs -/

/-- A call that takes waiters in or out, or leaves them where they are, as one transaction. -/
inductive WaiterCall where
  | dispatchJob (job : Job) (checkConflicts : Bool) (task : Option Imported)
  | promoteExpiredBlockedJobs (batchSize : Int)
  | slotCall (key : String) (call : SlotCall)

/-- The state after a call. -/
def WaiterCall.final (env : Env) (w : World) : WaiterCall → World
  | dispatchJob job checkConflicts task =>
      finalState (transactionAtomic (DjQueue.dispatchJob env job checkConflicts task)) w
  | promoteExpiredBlockedJobs batchSize =>
      finalState (DjQueue.promoteExpiredBlockedJobs env batchSize) w
  | slotCall key call => finalState (call.run env key) w

/-- A call on the database at some clock readings, or a write of another operation. -/
inductive WaiterStep where
  | call (env : Env) (made : WaiterCall) (clock : Nat → Time) (uuids : Nat → JobId)
  | other (db' : Db)

/-- The state after a step. -/
def WaiterStep.after (db : Db) : WaiterStep → Db
  | call env made clock uuids => (made.final env ⟨db, clock, uuids⟩).db
  | other db' => db'

/-- The other operations delete waiters, or add them at the end. -/
def WaiterStep.Ordinary (db : Db) : WaiterStep → Prop
  | call _ _ _ _ => True
  | other db' => Passes (fun _ => False) db.blocked db'.blocked

/-- The step leaves `a` on its row, or renews `a` and `b` in their order. -/
def WaiterStep.KeepsPlace (a b : JobId) (db : Db) : WaiterStep → Prop
  | call env (.promoteExpiredBlockedJobs batchSize) clock _ =>
      RenewedInOrder env (clock 0) batchSize db a b
  | call env (.slotCall key (.unblockNextBlockedJob _ _ mode)) _ _ =>
      Portable env mode →
        ((waitersOf db env.config.backendAlias key).head?.map (fun x => x.1.jobId)) ≠ some a
  | call env (.slotCall key (.releaseConcurrencySlot job task)) _ _ =>
      a ∉ movedByRelease env key ((SlotCall.releaseConcurrencySlot job task).limit env key db) db
  | _ => True

/-- A step that meets the condition and after which both jobs are still blocked. -/
def WaitingStep (condition : Db → WaiterStep → Prop) (a b : JobId) (db db' : Db) : Prop :=
  ∃ step : WaiterStep, step.Ordinary db ∧ condition db step ∧ db' = step.after db ∧
    db'.isBlocked a ∧ db'.isBlocked b

section Runs

variable {env : Env} {w w' : World} {db : Db} {a b : JobId}

theorem passes_of_dispatchJob {job : Job} {checkConflicts : Bool} {task : Option Imported}
    {outcome : DispatchOutcome} (numbered : WaitersNumbered w.db.blocked)
    (run : Runs (dispatchJob env job checkConflicts task) w outcome w') :
    Passes (fun _ => False) w.db.blocked w'.db.blocked := by
  obtain ⟨now, w₁, read, rest⟩ := Runs.of_bind run
  have same₁ := of_run_timezoneNow read
  obtain ⟨decision, w₂, decided, rest⟩ := Runs.of_bind rest
  obtain ⟨-, same₂⟩ := Runs.of_ofExcept decided
  obtain ⟨result, w₃, resolved, rest⟩ := Runs.of_bind rest
  obtain ⟨u, w₄, applied, rest⟩ := Runs.of_bind rest
  rw [(Runs.of_pure rest).2]
  have resolves : Spares Db.blocked (resolveOutcome env decision) := by
    cases decision with
    | outcome o => exact .pure o
    | concurrency key settings =>
        exact .bind (.semaphoreAcquire (fun _ _ => rfl) _ _ _ _) fun _ => .pure _
  have same₃ : w₃.db.blocked = w.db.blocked := by
    have kept : w₃.db.blocked = w₂.db.blocked := resolves _ _ _ resolved
    rw [kept, same₂, same₁]
  rw [← same₃] at numbered ⊢
  have unchanged : ∀ {x : Op Unit}, Spares Db.blocked x → Runs x w₃ u w₄ →
      Passes (fun _ => False) w₃.db.blocked w₄.db.blocked := by
    intro x spares run
    have kept : w₄.db.blocked = w₃.db.blocked := spares _ _ _ run
    rw [kept]
    exact (Stays.refl numbered).passes
  cases result with
  | ready => exact unchanged (.createReadyExecution (apart_blocked (by decide)) _ _ _ _ _ _) applied
  | scheduled =>
      exact unchanged (.createScheduledExecution (apart_blocked (by decide)) _ _ _ _) applied
  | discarded =>
      simp only [applyOutcome] at applied
      split at applied
      · exact unchanged (.finishJobIfNoExecutionState (fun _ _ => rfl) _ _ _ _) applied
      · exact unchanged (.updateJobsWhere (fun _ _ => rfl) _ _) applied
  | blocked =>
      cases decision with
      | outcome o => exact (Runs.of_throw applied).elim
      | concurrency key settings =>
          obtain ⟨expiresAt, w₅, added, created⟩ := Runs.of_bind applied
          obtain ⟨-, -, rfl⟩ := of_run_addSeconds added
          obtain ⟨-, fresh, inserted⟩ := of_run_createBlockedExecution created
          rw [inserted]
          exact .insert numbered (fun _ => rfl) fresh

theorem passes_of_unblockNextBlockedJob {key : String} {L duration : Int} {mode : SlotHandoffMode}
    {job : Option JobRef} (numbered : WaitersNumbered w.db.blocked)
    (run : Runs (unblockNextBlockedJob env key L duration mode) w job w') :
    Passes (fun job => Portable env mode ∧
        (waitersOf w.db env.config.backendAlias key).head?.map (fun x => x.1.jobId) = some job)
      w.db.blocked w'.db.blocked := by
  rcases of_run_unblockNextBlockedJob numbered run with
    ⟨-, stays⟩ | ⟨-, same | ⟨portable, requeues⟩, -⟩
  · exact stays.passes
  · rw [same]
    exact (Stays.refl numbered).passes
  · refine (requeues.passes numbered).1.mono ?_
    rintro job ⟨x, rest, waiters, rfl⟩
    exact ⟨portable, by rw [waiters]; rfl⟩

theorem passes_of_releaseConcurrencySlot {key : String} {job : Job} {task : Option Imported}
    {u : Unit} (numbered : WaitersNumbered w.db.blocked)
    (run : Runs (releaseConcurrencySlot env { job with concurrencyKey := some key } task) w u w') :
    Passes (· ∈ movedByRelease env key
      ((SlotCall.releaseConcurrencySlot job task).limit env key w.db) w.db)
      w.db.blocked w'.db.blocked := by
  unfold releaseConcurrencySlot at run
  split at run
  · rw [(Runs.of_pure run).2]
    exact (Stays.refl numbered).passes
  · rename_i key' keyed
    obtain rfl : key' = key := by
      simp only [Job.slotKey, Option.filter_eq_some_iff] at keyed
      exact (Option.some.inj keyed.1).symm
    obtain ⟨settings, w₁, read, rest⟩ := Runs.of_bind run
    obtain ⟨isLimit, same⟩ := of_run_releaseSettings read
    rw [same] at rest
    rw [← isLimit]
    exact passes_of_releaseSlot numbered rest

/-- What a slot call that returns does to the waiters, when it meets the condition. -/
theorem PickedBefore.slotCall {key : String} {call : SlotCall} {result : SlotResult}
    {clock : Nat → Time} {uuids : Nat → JobId} (before : PickedBefore w.db a b)
    (numbered : WaitersNumbered w.db.blocked) (run : Runs (call.run env key) w result w')
    (keeps : (WaiterStep.call env (.slotCall key call) clock uuids).KeepsPlace a b w.db)
    (first : w'.db.isBlocked a) (second : w'.db.isBlocked b) :
    WaitersNumbered w'.db.blocked ∧ PickedBefore w'.db a b := by
  have conclude : ∀ moved : JobId → Prop, Passes moved w.db.blocked w'.db.blocked →
      ¬ moved a → WaitersNumbered w'.db.blocked ∧ PickedBefore w'.db a b := fun _ passes stays =>
    ⟨passes.numbered, before.passes numbered passes stays first second⟩
  have unchanged : w'.db.blocked = w.db.blocked →
      WaitersNumbered w'.db.blocked ∧ PickedBefore w'.db a b := by
    intro same
    refine conclude (fun _ => False) ?_ id
    rw [same]
    exact (Stays.refl numbered).passes
  cases call with
  | semaphoreAcquire limit duration =>
      obtain ⟨x, w₁, body, rest⟩ := Runs.of_bind (Runs.of_atomic run)
      obtain ⟨-, rfl⟩ := Runs.of_pure rest
      exact unchanged (Spares.semaphoreAcquire (fun _ _ => rfl) env key limit duration _ _ _ body)
  | semaphoreAcquireMany count limit duration =>
      obtain ⟨x, w₁, body, rest⟩ := Runs.of_bind (Runs.of_atomic run)
      obtain ⟨-, rfl⟩ := Runs.of_pure rest
      exact unchanged
        (Spares.semaphoreAcquireMany (fun _ _ => rfl) env key count limit duration _ _ _ body)
  | semaphoreRelease limit duration =>
      change Runs (transactionAtomic _) _ _ _ at run
      obtain ⟨x, w₁, body, rest⟩ := Runs.of_bind (Runs.of_atomic run)
      obtain ⟨-, rfl⟩ := Runs.of_pure rest
      exact unchanged (Spares.semaphoreRelease (fun _ _ => rfl) env key limit duration _ _ _ body)
  | unblockNextBlockedJob limit duration mode =>
      obtain ⟨x, w₁, body, rest⟩ := Runs.of_bind (Runs.of_atomic run)
      obtain ⟨-, rfl⟩ := Runs.of_pure rest
      exact conclude _ (passes_of_unblockNextBlockedJob numbered body)
        fun ⟨portable, picked⟩ => keeps portable picked
  | releaseConcurrencySlot job task =>
      obtain ⟨x, w₁, body, rest⟩ := Runs.of_bind (Runs.of_atomic run)
      obtain ⟨-, rfl⟩ := Runs.of_pure rest
      exact conclude _ (passes_of_releaseConcurrencySlot numbered body) keeps
  | releaseRecoveredConcurrencyGroup count limit duration =>
      obtain ⟨x, w₁, body, rest⟩ := Runs.of_bind (Runs.of_atomic run)
      obtain ⟨-, rfl⟩ := Runs.of_pure rest
      exact conclude (fun _ => False) (KeepsRows.releaseRecoveredConcurrencyGroup env key
        count limit duration _ _ _ body numbered).passes id

/-- One step: a call that raises is undone. -/
theorem PickedBefore.step {step : WaiterStep} (before : PickedBefore db a b)
    (numbered : WaitersNumbered db.blocked) (ordinary : step.Ordinary db)
    (keeps : step.KeepsPlace a b db) (first : (step.after db).isBlocked a)
    (second : (step.after db).isBlocked b) :
    WaitersNumbered (step.after db).blocked ∧ PickedBefore (step.after db) a b := by
  have undone : ∀ {db' : Db}, db' = db → WaitersNumbered db'.blocked ∧ PickedBefore db' a b := by
    rintro db' rfl
    exact ⟨numbered, before⟩
  cases step with
  | other db' => exact ⟨ordinary.numbered, before.passes numbered ordinary id first second⟩
  | call env made clock uuids =>
      cases made with
      | dispatchJob job checkConflicts task =>
          rcases runs_or_raises (transactionAtomic (dispatchJob env job checkConflicts task))
            ⟨db, clock, uuids⟩ with ⟨result, run, -⟩ | ⟨e, raised, -⟩
          · have passes := passes_of_dispatchJob (w := ⟨db, clock, uuids⟩) numbered
              (Runs.of_atomic run)
            exact ⟨passes.numbered, before.passes numbered passes id first second⟩
          · exact undone (db_of_raises_transactionAtomic raised)
      | promoteExpiredBlockedJobs batchSize =>
          rcases runs_or_raises (promoteExpiredBlockedJobs env batchSize)
            ⟨db, clock, uuids⟩ with ⟨result, run, -⟩ | ⟨e, raised, -⟩
          · refine ⟨?_, PickedBefore.promote (w := ⟨db, clock, uuids⟩) before numbered run keeps
              first second⟩
            rcases of_run_promoteExpiredBlockedJobs (w := ⟨db, clock, uuids⟩) numbered run with
              ⟨-, stays⟩ | ⟨-, pairs, renews⟩
            · exact stays.numbered
            · exact renews.numbered
          · exact undone (RollsBack.bind Reads.timezoneNow (fun _ => RollsBack.atomic _) _ _ _
              raised)
      | slotCall key call =>
          rcases runs_or_raises (call.run env key) ⟨db, clock, uuids⟩ with
            ⟨result, run, -⟩ | ⟨e, raised, -⟩
          · exact PickedBefore.slotCall (w := ⟨db, clock, uuids⟩) before numbered run keeps first
              second
          · refine undone ?_
            cases call <;> exact db_of_raises_transactionAtomic raised

end Runs

/-- Along every run of steps that leave `a` on its row, or renew both in their order, `a` is picked
before `b` as long as both wait. -/
theorem waiters_keep_their_place {a b : JobId} {db db' : Db} (numbered : WaitersNumbered db.blocked)
    (before : PickedBefore db a b)
    (run : Reach (WaitingStep (fun db step => step.KeepsPlace a b db) a b) db db') :
    PickedBefore db' a b := by
  refine (Reach.invariant (I := fun db => WaitersNumbered db.blocked ∧ PickedBefore db a b) ?_
    ⟨numbered, before⟩ run).2
  rintro s t ⟨numbered, before⟩ ⟨step, ordinary, keeps, rfl, first, second⟩
  exact before.step numbered ordinary keeps first second

/-- A waiter on the one slot of a key. -/
def waitingJob (id : JobId) : Job :=
  ⟨id, "app.task", "default", 0, ⟨[], []⟩, "default", none, some "account", some 1, some 60,
    some "block", none, none⟩

/-- The slot is taken, and two jobs wait for it; the first one's wait expires first. -/
def twoWaiters : Db :=
  { Db.empty with
    jobs := [waitingJob 1, waitingJob 2]
    blocked := ⟨[⟨1, 1, "default", "default", 0, "account", 10⟩,
      ⟨2, 2, "default", "default", 0, "account", 20⟩], 3⟩
    semaphores := ⟨[⟨1, "account", 0, some 1, 1, 1000, 0⟩], 2⟩ }

theorem numbered_twoWaiters : WaitersNumbered twoWaiters.blocked := by
  refine ⟨?_, ?_, ?_⟩
  · decide
  · decide
  · decide

/-- Both waits have expired: both are renewed, in their order. -/
theorem waiters_keep_their_place_when_both_expired :
    PickedBefore ((WaiterStep.call (Env.ofConfig { family := .sqlite })
      (.promoteExpiredBlockedJobs 500) (fun _ => 30) (fun _ => 0)).after twoWaiters) 1 2 := by
  refine waiters_keep_their_place numbered_twoWaiters ?_ (.single
    ⟨.call (Env.ofConfig { family := .sqlite }) (.promoteExpiredBlockedJobs 500) (fun _ => 30)
      (fun _ => 0), trivial, ?_, rfl, ?_, ?_⟩)
  · unfold PickedBefore
    decide
  · unfold WaiterStep.KeepsPlace RenewedInOrder
    decide +kernel
  · unfold Db.isBlocked
    decide +kernel
  · unfold Db.isBlocked
    decide +kernel

/-- Only the first wait has expired: its renewal puts the first waiter behind the second. -/
theorem waiter_loses_its_place :
    ¬ ∀ (a b : JobId) (db db' : Db), WaitersNumbered db.blocked → PickedBefore db a b →
      Reach (WaitingStep (fun _ _ => True) a b) db db' → PickedBefore db' a b := by
  intro claim
  have before : PickedBefore twoWaiters 1 2 := by
    unfold PickedBefore
    decide
  have behind := claim 1 2 twoWaiters _ numbered_twoWaiters before (.single
    ⟨.call (Env.ofConfig { family := .sqlite }) (.promoteExpiredBlockedJobs 500) (fun _ => 15)
      (fun _ => 0), trivial, trivial, rfl, by unfold Db.isBlocked; decide +kernel,
      by unfold Db.isBlocked; decide +kernel⟩)
  revert behind
  unfold PickedBefore
  decide +kernel

end DjQueue
