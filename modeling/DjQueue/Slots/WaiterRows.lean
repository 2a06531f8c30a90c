import DjQueue.Slots.WellFormed

/-!
# The row of a waiter

Waiters of a key are picked by priority and then by row id, so a waiter keeps its place as long as
it keeps its row.  `Passes` says of a write which waiters lose theirs.  A hand-off on PostgreSQL
deletes a waiter once it has the slot; a portable one deletes the first waiter before it knows
whether there is a slot, and puts it on a new row when there is none.
-/

namespace DjQueue

open Relational

/-! ## Rows -/

/-- The same waiter, on this row or on another one. -/
structure BlockedExecution.SameWaiter (r r' : BlockedExecution) : Prop where
  job : r'.jobId = r.jobId
  backend : r'.backendAlias = r.backendAlias
  key : r'.concurrencyKey = r.concurrencyKey
  priority : r'.priority = r.priority

namespace BlockedExecution.SameWaiter

variable {r r' r'' : BlockedExecution}

theorem refl (r : BlockedExecution) : r.SameWaiter r := ⟨rfl, rfl, rfl, rfl⟩

theorem trans (first : r.SameWaiter r') (second : r'.SameWaiter r'') : r.SameWaiter r'' :=
  ⟨second.job.trans first.job, second.backend.trans first.backend, second.key.trans first.key,
    second.priority.trans first.priority⟩

end BlockedExecution.SameWaiter

/-- One row a job, numbered. -/
structure WaitersNumbered (t : Table BlockedExecution) : Prop where
  ids : (t.rows.map BlockedExecution.id).Nodup
  jobs : (t.rows.map BlockedExecution.jobId).Nodup
  bound : ∀ r ∈ t.rows, r.id < t.nextId

namespace WaitersNumbered

variable {t : Table BlockedExecution}

theorem eq_of_job (numbered : WaitersNumbered t) {r r' : BlockedExecution} (mem : r ∈ t.rows)
    (mem' : r' ∈ t.rows) (same : r.jobId = r'.jobId) : r = r' :=
  List.inj_on_of_nodup_map numbered.jobs mem mem' same

theorem eq_of_id (numbered : WaitersNumbered t) {r r' : BlockedExecution} (mem : r ∈ t.rows)
    (mem' : r' ∈ t.rows) (same : r.id = r'.id) : r = r' :=
  List.inj_on_of_nodup_map numbered.ids mem mem' same

/-- Deleting keeps the waiters numbered. -/
theorem deleteWhere (numbered : WaitersNumbered t) (p : BlockedExecution → Bool) :
    WaitersNumbered (t.deleteWhere p) where
  ids := numbered.ids.sublist (List.filter_sublist.map _)
  jobs := numbered.jobs.sublist (List.filter_sublist.map _)
  bound r mem := numbered.bound r (List.mem_of_mem_filter mem)

theorem insert (numbered : WaitersNumbered t) {mk : Nat → BlockedExecution}
    (ids : ∀ n, (mk n).id = n) (fresh : ∀ r ∈ t.rows, r.jobId ≠ (mk t.nextId).jobId) :
    WaitersNumbered (t.insert mk) where
  ids := by
    rw [Table.rows_insert, List.map_append, List.nodup_append]
    refine ⟨numbered.ids, List.nodup_singleton _, ?_⟩
    intro id mem new isNew same
    rw [List.map_singleton, List.mem_singleton, ids] at isNew
    obtain ⟨r, there, isOld⟩ := List.mem_map.mp mem
    have bound := numbered.bound r there
    omega
  jobs := by
    rw [Table.rows_insert, List.map_append, List.nodup_append]
    refine ⟨numbered.jobs, List.nodup_singleton _, ?_⟩
    intro job mem new isNew same
    rw [List.map_singleton, List.mem_singleton] at isNew
    obtain ⟨r, there, isOld⟩ := List.mem_map.mp mem
    exact fresh r there ((isOld.trans same).trans isNew)
  bound r mem := by
    rw [Table.nextId_insert]
    rcases List.mem_append.mp mem with old | new
    · exact Nat.lt_succ_of_lt (numbered.bound r old)
    · rw [List.mem_singleton.mp new, ids]
      exact Nat.lt_succ_self _

theorem updateWhere (numbered : WaitersNumbered t) {p : BlockedExecution → Bool}
    {f : BlockedExecution → BlockedExecution} (ids : ∀ r, (f r).id = r.id)
    (jobs : ∀ r, (f r).jobId = r.jobId) : WaitersNumbered (t.updateWhere p f) := by
  have column : ∀ {γ : Type} (g : BlockedExecution → γ), (∀ r, g (f r) = g r) →
      (t.updateWhere p f).rows.map g = t.rows.map g := by
    intro γ g keeps
    rw [Table.rows_updateWhere, List.map_map]
    refine List.map_congr_left fun r _ => ?_
    rw [Function.comp_apply]
    split
    · exact keeps r
    · rfl
  refine ⟨by rw [column _ ids]; exact numbered.ids, by rw [column _ jobs]; exact numbered.jobs,
    fun r mem => ?_⟩
  obtain ⟨old, there, rfl⟩ := List.mem_map.mp mem
  have bound := numbered.bound old there
  split
  · rw [ids]
    exact bound
  · exact bound

end WaitersNumbered

/-! ## What a write does to the places -/

/-- Nobody joins, and whoever stays keeps the row. -/
structure Stays (t t' : Table BlockedExecution) : Prop where
  numbered : WaitersNumbered t'
  next : t.nextId ≤ t'.nextId
  rows : ∀ r' ∈ t'.rows, ∃ r ∈ t.rows, r.SameWaiter r' ∧ r'.id = r.id

/-- Whoever stays keeps the row, save the `moved` ones, who get a later one; whoever joins comes
after the others. -/
structure Passes (moved : JobId → Prop) (t t' : Table BlockedExecution) : Prop where
  numbered : WaitersNumbered t'
  next : t.nextId ≤ t'.nextId
  rows : ∀ r' ∈ t'.rows,
    (∃ r ∈ t.rows, r.SameWaiter r' ∧ (r'.id = r.id ∨ t.nextId ≤ r'.id ∧ moved r.jobId)) ∨
      t.nextId ≤ r'.id ∧ ∀ r ∈ t.rows, r.jobId ≠ r'.jobId

section Places

variable {t t' t'' : Table BlockedExecution} {moved moved' : JobId → Prop}

theorem Stays.refl (numbered : WaitersNumbered t) : Stays t t :=
  ⟨numbered, Nat.le_refl _, fun r mem => ⟨r, mem, .refl r, rfl⟩⟩

theorem Stays.trans (first : Stays t t') (second : Stays t' t'') : Stays t t'' := by
  refine ⟨second.numbered, first.next.trans second.next, fun r'' mem => ?_⟩
  obtain ⟨r', mem', same', id'⟩ := second.rows r'' mem
  obtain ⟨r, there, same, id⟩ := first.rows r' mem'
  exact ⟨r, there, same.trans same', id'.trans id⟩

theorem Stays.deleteWhere (numbered : WaitersNumbered t) (p : BlockedExecution → Bool) :
    Stays t (t.deleteWhere p) :=
  ⟨numbered.deleteWhere p, Nat.le_refl _, fun r mem =>
    ⟨r, List.mem_of_mem_filter mem, .refl r, rfl⟩⟩

/-- A renewal in place. -/
theorem Stays.renew (numbered : WaitersNumbered t) (p : BlockedExecution → Bool)
    (expiresAt : Time) :
    Stays t (t.updateWhere p (fun r => { r with expiresAt := expiresAt })) := by
  refine ⟨numbered.updateWhere (fun _ => rfl) (fun _ => rfl), Nat.le_refl _, fun r' mem => ?_⟩
  obtain ⟨r, there, rfl⟩ := List.mem_map.mp mem
  refine ⟨r, there, ?_⟩
  split
  · exact ⟨⟨rfl, rfl, rfl, rfl⟩, rfl⟩
  · exact ⟨.refl r, rfl⟩

theorem Stays.passes (stays : Stays t t') : Passes moved t t' := by
  refine ⟨stays.numbered, stays.next, fun r' mem => .inl ?_⟩
  obtain ⟨r, there, same, id⟩ := stays.rows r' mem
  exact ⟨r, there, same, .inl id⟩

theorem Passes.mono (passes : Passes moved t t') (more : ∀ job, moved job → moved' job) :
    Passes moved' t t' := by
  refine ⟨passes.numbered, passes.next, fun r' mem => ?_⟩
  rcases passes.rows r' mem with ⟨r, there, same, id | ⟨fresh, was⟩⟩ | joined
  · exact .inl ⟨r, there, same, .inl id⟩
  · exact .inl ⟨r, there, same, .inr ⟨fresh, more _ was⟩⟩
  · exact .inr joined

theorem Passes.insert (numbered : WaitersNumbered t) {mk : Nat → BlockedExecution}
    (ids : ∀ n, (mk n).id = n) (fresh : ∀ r ∈ t.rows, r.jobId ≠ (mk t.nextId).jobId) :
    Passes moved t (t.insert mk) := by
  refine ⟨numbered.insert ids fresh, Nat.le_succ _, fun r' mem => ?_⟩
  rcases List.mem_append.mp mem with old | new
  · exact .inl ⟨r', old, .refl r', .inl rfl⟩
  · rw [List.mem_singleton.mp new, ids]
    exact .inr ⟨Nat.le_refl _, fresh⟩

/-- A waiter is taken out and comes back on a later row. -/
theorem Passes.requeue (numbered : WaitersNumbered t) {r : BlockedExecution} (mem : r ∈ t.rows)
    {mk : Nat → BlockedExecution} (ids : ∀ n, (mk n).id = n) (same : ∀ n, r.SameWaiter (mk n)) :
    Passes (· = r.jobId) t ((t.deleteWhere (fun r' => r'.id == r.id)).insert mk) := by
  have others : ∀ r' ∈ (t.deleteWhere (fun r' => r'.id == r.id)).rows,
      r'.jobId ≠ (mk t.nextId).jobId := by
    intro r' there sameJob
    obtain ⟨there, kept⟩ := List.mem_filter.mp there
    rw [(same _).job] at sameJob
    rw [numbered.eq_of_job there mem sameJob] at kept
    simp at kept
  have inserted : Passes (· = r.jobId) _ _ := .insert (numbered.deleteWhere _) ids others
  refine ⟨inserted.numbered, inserted.next, fun r' there => .inl ?_⟩
  rcases List.mem_append.mp there with old | new
  · exact ⟨r', List.mem_of_mem_filter old, .refl r', .inl rfl⟩
  · rw [List.mem_singleton.mp new]
    exact ⟨r, mem, same _, .inr ⟨by rw [ids]; exact Nat.le_refl _, rfl⟩⟩

/-- When the first write takes nobody out, nobody comes back with the second. -/
theorem Passes.trans (first : Passes moved t t') (second : Passes moved' t' t'')
    (complete : ∀ r ∈ t.rows, ∃ r' ∈ t'.rows, r'.jobId = r.jobId) :
    Passes (fun job => moved job ∨ moved' job) t t'' := by
  refine ⟨second.numbered, first.next.trans second.next, fun r'' mem => ?_⟩
  have later := first.next
  rcases second.rows r'' mem with ⟨r', there', same', id'⟩ | ⟨fresh, none⟩
  · rcases first.rows r' there' with ⟨r, there, same, id⟩ | ⟨joined, none⟩
    · refine .inl ⟨r, there, same.trans same', ?_⟩
      rw [← same.job]
      rcases id' with id' | ⟨fresh', was'⟩
      · rw [id', same.job]
        rcases id with id | ⟨fresh, was⟩
        · exact .inl id
        · exact .inr ⟨fresh, .inl was⟩
      · exact .inr ⟨later.trans fresh', .inr was'⟩
    · refine .inr ⟨?_, fun r there => by rw [same'.job]; exact none r there⟩
      rcases id' with id' | ⟨fresh', -⟩ <;> omega
  · refine .inr ⟨later.trans fresh, fun r there sameJob => ?_⟩
    obtain ⟨r', there', job⟩ := complete r there
    exact none r' there' (job.trans sameJob)

end Places

/-! ## Who is picked first -/

/-- A job that waits. -/
def Db.isBlocked (db : Db) (job : JobId) : Prop := ∃ r ∈ db.blocked.rows, r.jobId = job

/-- Both wait on one key of one backend with one priority, and `a` is picked first. -/
def PickedBefore (db : Db) (a b : JobId) : Prop :=
  ∃ r ∈ db.blocked.rows, ∃ s ∈ db.blocked.rows, r.jobId = a ∧ s.jobId = b ∧
    r.backendAlias = s.backendAlias ∧ r.concurrencyKey = s.concurrencyKey ∧
    r.priority = s.priority ∧ blockedOrder r s = true ∧ r.id ≠ s.id

theorem blockedOrder_of_priority {r s : BlockedExecution} (same : r.priority = s.priority) :
    blockedOrder r s = true ↔ r.id ≤ s.id := by
  simp [blockedOrder, higherPriority, same]

/-- Two that stay keep their order, however others move. -/
theorem PickedBefore.passes {db db' : Db} {a b : JobId} {moved : JobId → Prop}
    (before : PickedBefore db a b) (numbered : WaitersNumbered db.blocked)
    (passes : Passes moved db.blocked db'.blocked) (stays : ¬ moved a) (first : db'.isBlocked a)
    (second : db'.isBlocked b) : PickedBefore db' a b := by
  obtain ⟨r, mem, s, mem', rfl, rfl, backend, key, priority, order, different⟩ := before
  obtain ⟨r', there, job⟩ := first
  obtain ⟨s', there', job'⟩ := second
  have earlier := (blockedOrder_of_priority priority).mp order
  obtain ⟨r₀, mem₀, same, id⟩ | ⟨-, none⟩ := passes.rows r' there
  · obtain rfl := numbered.eq_of_job mem₀ mem (same.job.symm.trans job)
    obtain id | ⟨-, was⟩ := id
    · obtain ⟨s₀, mem₁, same', id'⟩ | ⟨-, none⟩ := passes.rows s' there'
      · obtain rfl := numbered.eq_of_job mem₁ mem' (same'.job.symm.trans job')
        have samePriority : r'.priority = s'.priority := by
          rw [same.priority, same'.priority, priority]
        have bound := numbered.bound r₀ mem
        have later : r'.id < s'.id := by
          rcases id' with id' | ⟨fresh, -⟩ <;> omega
        refine ⟨r', there, s', there', job, job', ?_, ?_, samePriority,
          (blockedOrder_of_priority samePriority).mpr later.le, later.ne⟩
        · rw [same.backend, same'.backend, backend]
        · rw [same.key, same'.key, key]
      · exact absurd job'.symm (none s mem')
    · exact absurd was stays
  · exact absurd job.symm (none r mem)

/-! ## The first waiter of a key -/

section FirstWaiter

variable {db : Db} {backendAlias key : String}

theorem mem_waitersOf {x : BlockedExecution × Job} :
    x ∈ waitersOf db backendAlias key ↔ x.1 ∈ db.blocked.rows ∧ x.1.backendAlias = backendAlias ∧
      x.1.concurrencyKey = key ∧ db.findJob x.1.jobId = some x.2 := by
  unfold waitersOf selectRelatedJob
  rw [List.mem_filterMap]
  constructor
  · rintro ⟨r, mem, eq⟩
    obtain ⟨job, found, rfl⟩ := Option.map_eq_some_iff.mp eq
    obtain ⟨there, hit⟩ := List.mem_filter.mp (mem_orderBy.mp mem)
    rw [Bool.and_eq_true, beq_iff_eq, beq_iff_eq] at hit
    exact ⟨there, hit.1, hit.2, found⟩
  · rintro ⟨there, backend, keyed, found⟩
    refine ⟨x.1, mem_orderBy.mpr (List.mem_filter.mpr ⟨there, ?_⟩), ?_⟩
    · rw [backend, keyed, beq_self_eq_true, beq_self_eq_true, Bool.and_self]
    · exact Option.map_eq_some_iff.mpr ⟨x.2, found, rfl⟩

theorem blockedOrder_trans {r s t : BlockedExecution} (first : blockedOrder r s = true)
    (second : blockedOrder s t = true) : blockedOrder r t = true := by
  simp only [blockedOrder, higherPriority, Bool.or_eq_true, Bool.and_eq_true, decide_eq_true_eq,
    beq_iff_eq] at *
  omega

theorem blockedOrder_total (r s : BlockedExecution) :
    blockedOrder r s = true ∨ blockedOrder s r = true := by
  simp only [blockedOrder, higherPriority, Bool.or_eq_true, Bool.and_eq_true, decide_eq_true_eq,
    beq_iff_eq]
  omega

theorem pairwise_waitersOf (db : Db) (backendAlias key : String) :
    (waitersOf db backendAlias key).Pairwise (fun x y => blockedOrder x.1 y.1 = true) :=
  pairwise_selectRelatedJob (m := .blocked) (R := fun r s => blockedOrder r s = true)
    (pairwise_orderBy blockedOrder (fun _ _ _ => blockedOrder_trans) blockedOrder_total _)

/-- The first waiter comes before every other one. -/
theorem blockedOrder_of_first {x y : BlockedExecution × Job} {rest : List (BlockedExecution × Job)}
    (waiters : waitersOf db backendAlias key = x :: rest)
    (mem : y ∈ waitersOf db backendAlias key) : blockedOrder x.1 y.1 = true := by
  have sorted := pairwise_waitersOf db backendAlias key
  rw [waiters] at sorted mem
  rcases List.mem_cons.mp mem with rfl | mem
  · exact (blockedOrder_of_priority rfl).mpr (Nat.le_refl _)
  · exact (List.pairwise_cons.mp sorted).1 y mem

end FirstWaiter

/-! ## Hand-offs -/

/-- What a hand-off that gives nobody a slot does to the waiters of the key: nothing, or it puts
the first one on a later row. -/
inductive Requeues (backendAlias key : String) (db db' : Db) : Prop
  | nobody (same : db'.blocked = db.blocked)
  | first {x : BlockedExecution × Job} {rest : List (BlockedExecution × Job)}
      (waiters : waitersOf db backendAlias key = x :: rest) {mk : Nat → BlockedExecution}
      (ids : ∀ n, (mk n).id = n) (waiter : ∀ n, x.1.SameWaiter (mk n))
      (blocked : db'.blocked = (db.blocked.deleteWhere (fun r => r.id == x.1.id)).insert mk)

section Handoffs

variable {env : Env} {key : String} {L duration : Int} {now : Time} {w w' : World}

/-- A blocked row created is new and last. -/
theorem of_run_createBlockedExecution {ref : JobRef} {backendAlias : String} {expiresAt : Time}
    {queueName : Option String} {priority : Option Int} {checkConflicts : Bool} {u : Unit}
    (run : Runs (createBlockedExecution ref backendAlias (some key) expiresAt queueName priority
      checkConflicts) w u w') :
    ref.backendAlias = backendAlias ∧ (∀ r ∈ w.db.blocked.rows, r.jobId ≠ ref.id) ∧
      w'.db.blocked = w.db.blocked.insert (fun n => {
        id := n
        jobId := ref.id
        backendAlias := backendAlias
        queueName := queueName.getD ref.queueName
        priority := priority.getD ref.priority
        concurrencyKey := key
        expiresAt := expiresAt }) := by
  obtain ⟨v, w₁, checked, rest⟩ := Runs.of_bind run
  have same₁ : w₁ = w := of_run_runIf_check
    Accounts.of_run_ensureNoOtherExecutionState checked
  obtain ⟨row, w₂, built, created⟩ := Runs.of_bind rest
  obtain ⟨computed, same₂⟩ := Runs.of_ofExcept built
  rw [same₁] at same₂
  rw [same₂] at created
  obtain ⟨backend, own, eq⟩ := of_bind_ok computed
  obtain ⟨isOwn, rfl⟩ := of_run_executionBackendAlias own
  cases eq
  obtain ⟨now, w₃, read, inserted⟩ := Runs.of_bind created
  have same₃ := of_run_timezoneNow read
  obtain ⟨db, w₄, got, inserted⟩ := Runs.of_bind inserted
  obtain ⟨rfl, rfl⟩ := of_run_getDb got
  split at inserted
  · exact (Runs.of_throw inserted).elim
  · rename_i free
    have blocked := of_run_modifyDb inserted
    refine ⟨isOwn, ?_, ?_⟩
    · rw [← same₃]
      intro r mem sameJob
      refine free (Bool.or_eq_true_iff.mpr (.inr ?_))
      unfold Db.hasState
      rw [List.contains_iff_mem]
      exact List.mem_map.mpr ⟨r, mem, sameJob⟩
    · rw [blocked, ← same₃]
      rfl

/-- The first waiter is consumed, if there is one. -/
theorem of_run_consumeNextBlockedJob {found : Option (BlockedExecution × Job)}
    (run : Runs (consumeNextBlockedJob env key) w found w') :
    (waitersOf w.db env.config.backendAlias key = [] ∧ found = none ∧
        w'.db.blocked = w.db.blocked) ∨
      ∃ x rest, waitersOf w.db env.config.backendAlias key = x :: rest ∧ found = some x ∧
        w'.db.blocked = w.db.blocked.deleteWhere (fun r => r.id == x.1.id) := by
  obtain ⟨db, w₁, got, rest⟩ := Runs.of_bind run
  obtain ⟨rfl, rfl⟩ := of_run_getDb got
  split at rest
  · rename_i none
    obtain ⟨rfl, rfl⟩ := Runs.of_pure rest
    exact .inl ⟨none, rfl, rfl⟩
  · rename_i x others waiters
    have there := (mem_waitersOf (x := x)).mp (waiters ▸ List.mem_cons_self)
    refine .inr ⟨x, others, waiters, ?_⟩
    split at rest
    · obtain ⟨n, w₂, deleted, rest⟩ := Runs.of_bind rest
      obtain ⟨rfl, rfl⟩ := Runs.of_pure rest
      rw [(of_run_deleteRowsWhere deleted).2]
      exact ⟨rfl, rfl⟩
    · obtain ⟨u, w₂, checked, rest⟩ := Runs.of_bind rest
      rw [(of_run_ensureStateRowsBelongToBackend (m := .blocked) checked).1] at rest
      obtain ⟨consumed, w₃, deleted, rest⟩ := Runs.of_bind rest
      obtain ⟨rfl, rfl⟩ := Runs.of_pure rest
      obtain ⟨rfl, db₃⟩ := of_run_consumeSelectedRows (m := .blocked)
        (fun y mem => ⟨x.1, there.1, by rw [List.mem_singleton.mp mem]; rfl⟩) (by simp) deleted
      refine ⟨rfl, ?_⟩
      rw [db₃]
      exact (without_singleton (m := .blocked) _ x.1.id).symm

/-- The key's row lets a release hand its slot over. -/
def handsOver (db : Db) (key : String) (L : Int) : Bool :=
  (db.findSemaphore key).any (fun r => r.limit - L - 1 < r.value)

/-- The hand-off's update reached the row. -/
theorem updated_of_handsOver {order : EvaluationOrder} {expiresAt : Time} {n : Nat}
    (accepts : handsOver w.db key L = true)
    (run : Runs (updateSemaphore order key (handoffReleasedClaimedSlotUpdate L expiresAt now))
      w n w') : 0 < n := by
  obtain ⟨db, w₁, got, rest⟩ := Runs.of_bind run
  obtain ⟨rfl, rfl⟩ := of_run_getDb got
  obtain ⟨u, w₂, saved, rest⟩ := Runs.of_bind rest
  obtain ⟨rfl, -⟩ := Runs.of_pure rest
  obtain ⟨r, found, fits⟩ := (Option.any_eq_true _ _).mp accepts
  obtain ⟨mem, keyed⟩ := mem_of_findSemaphore found
  exact List.countP_pos_iff.mpr ⟨r, mem, by
    rw [Bool.and_eq_true, beq_iff_eq]
    exact ⟨keyed, fits⟩⟩

/-- A portable hand-off: the first waiter leaves with the slot, or comes back without it. -/
theorem requeues_of_consumeBlockedJobPortably {mode : SlotHandoffMode}
    {result : Option (JobRef × Bool)} (numbered : WaitersNumbered w.db.blocked)
    (run : Runs (consumeBlockedJobPortably env mode key L duration now) w result w') :
    (∃ ref, result = some (ref, true) ∧ Stays w.db.blocked w'.db.blocked) ∨
      (∀ ref, result ≠ some (ref, true)) ∧ Requeues env.config.backendAlias key w.db w'.db ∧
        (waitersOf w.db env.config.backendAlias key = [] ∨
          (mode = .releaseClaimed → handsOver w.db key L = false)) := by
  obtain ⟨consumed, w₁, taken, rest⟩ := Runs.of_bind run
  rcases of_run_consumeNextBlockedJob taken with
    ⟨none, rfl, same⟩ | ⟨x, others, waiters, rfl, deleted⟩
  · obtain ⟨rfl, rfl⟩ := Runs.of_pure rest
    exact .inr ⟨nofun, .nobody same, .inl none⟩
  · obtain ⟨blocked, job⟩ := x
    dsimp only at rest
    split at rest
    · exact (Runs.of_throw rest).elim
    · obtain ⟨given, w₂, asked, rest⟩ := Runs.of_bind rest
      obtain ⟨u, w₃, restored, rest⟩ := Runs.of_bind rest
      obtain ⟨rfl, rfl⟩ := Runs.of_pure rest
      have kept : w₂.db.blocked = w₁.db.blocked :=
        Spares.acquireHandoffSlot (fun _ _ => rfl) env mode key L duration now _ _ _ asked
      cases given with
      | true =>
          obtain ⟨impossible, -⟩ | ⟨-, same⟩ := Runs.of_runIf restored
          · cases impossible
          · refine .inl ⟨_, rfl, ?_⟩
            rw [same, kept, deleted]
            exact .deleteWhere numbered _
      | false =>
          obtain ⟨-, back⟩ | ⟨impossible, -⟩ := Runs.of_runIf restored
          · obtain ⟨-, -, again⟩ := of_run_createBlockedExecution back
            have own := (mem_waitersOf (x := (blocked, job))).mp (waiters ▸ List.mem_cons_self)
            rw [kept, deleted] at again
            refine .inr ⟨by simp, .first waiters ?_ ?_ again, .inr ?_⟩
            · exact fun _ => rfl
            · exact fun _ => ⟨rfl, own.2.1.symm, rfl, rfl⟩
            · rintro rfl
              refine Bool.eq_false_iff.mpr fun accepts => ?_
              have semaphores : w₁.db.semaphores = w.db.semaphores :=
                Spares.consumeNextBlockedJob (apart_semaphores _) env key _ _ _ taken
              obtain ⟨-, -, n, given, updated⟩ := checked_of_run_handoffReleasedClaimedSlot asked
              have positive := updated_of_handsOver
                (by unfold handsOver Db.findSemaphore; rw [semaphores]; exact accepts) updated
              exact absurd given (by simp [positive])
          · cases impossible

/-- A PostgreSQL hand-off of a claimed slot deletes the waiter only once it has the slot. -/
theorem stays_of_consumeBlockedJobOnPostgres {result : Option (JobRef × Bool)}
    (numbered : WaitersNumbered w.db.blocked)
    (run : Runs (consumeBlockedJobOnPostgres env key L duration now) w result w') :
    (∃ ref, result = some (ref, true) ∧ Stays w.db.blocked w'.db.blocked) ∨
      (∀ ref, result ≠ some (ref, true)) ∧ w'.db.blocked = w.db.blocked ∧
        (waitersOf w.db env.config.backendAlias key = [] ∨ handsOver w.db key L = false) := by
  obtain ⟨consumed, w₁, taken, rest⟩ := Runs.of_bind run
  obtain ⟨-, -, body⟩ := checked_of_run_consumeNextBlockedJobWithReleasedSlot taken
  split at body
  · rename_i none
    obtain ⟨rfl, rfl⟩ := Runs.of_pure body
    obtain ⟨rfl, rfl⟩ := Runs.of_pure rest
    exact .inr ⟨nofun, rfl, .inl none⟩
  · rename_i x others waiters
    obtain ⟨n, w₃, sent, body⟩ := Runs.of_bind body
    obtain ⟨-, updated⟩ := of_run_updateSlots sent
    have kept : w₃.db.blocked = w.db.blocked :=
      Spares.updateSemaphore (fun _ _ => rfl) _ _ _ _ _ _ updated
    split at body
    · rename_i refused
      obtain ⟨rfl, rfl⟩ := Runs.of_pure body
      dsimp only at rest
      split at rest
      · exact (Runs.of_throw rest).elim
      · obtain ⟨rfl, rfl⟩ := Runs.of_pure rest
        refine .inr ⟨by simp, kept, .inr (Bool.eq_false_iff.mpr fun accepts => ?_)⟩
        have positive := updated_of_handsOver accepts updated
        omega
    · obtain ⟨n', w₄, deleted, body⟩ := Runs.of_bind body
      obtain ⟨rfl, rfl⟩ := Runs.of_pure body
      dsimp only at rest
      split at rest
      · exact (Runs.of_throw rest).elim
      · obtain ⟨rfl, rfl⟩ := Runs.of_pure rest
        refine .inl ⟨_, rfl, ?_⟩
        rw [← kept] at numbered ⊢
        rw [(of_run_deleteRowsWhere deleted).2]
        exact .deleteWhere numbered _

/-- The hand-offs that delete the waiter before they know whether it gets the slot. -/
def Portable (env : Env) (mode : SlotHandoffMode) : Prop :=
  ¬ (mode = .releaseClaimed ∧ env.config.family = .postgresql)

/-- A hand-off that found a job leaves the others where they stand; one that found none put the
first waiter back, behind the others, or changed nothing. -/
theorem of_run_unblockNextBlockedJob {mode : SlotHandoffMode} {job : Option JobRef}
    (numbered : WaitersNumbered w.db.blocked)
    (run : Runs (unblockNextBlockedJob env key L duration mode) w job w') :
    (job ≠ none ∧ Stays w.db.blocked w'.db.blocked) ∨
      job = none ∧ (w'.db.blocked = w.db.blocked ∨
        Portable env mode ∧ Requeues env.config.backendAlias key w.db w'.db) ∧
        (waitersOf w.db env.config.backendAlias key = [] ∨
          (mode = .releaseClaimed → handsOver w.db key L = false)) := by
  obtain ⟨now, w₁, read, rest⟩ := Runs.of_bind run
  have same := of_run_timezoneNow read
  rw [← same] at numbered ⊢
  obtain ⟨slot, w₂, consumed, rest⟩ := Runs.of_bind (Runs.of_atomic rest)
  have handled : (∃ ref, slot = some (ref, true) ∧ Stays w₁.db.blocked w₂.db.blocked) ∨
      (∀ ref, slot ≠ some (ref, true)) ∧ (w₂.db.blocked = w₁.db.blocked ∨
        Portable env mode ∧ Requeues env.config.backendAlias key w₁.db w₂.db) ∧
        (waitersOf w₁.db env.config.backendAlias key = [] ∨
          (mode = .releaseClaimed → handsOver w₁.db key L = false)) := by
    unfold consumeBlockedJobForSlot at consumed
    split at consumed
    · rename_i path
      rcases stays_of_consumeBlockedJobOnPostgres numbered consumed with
        given | ⟨refused, kept, why⟩
      · exact .inl given
      · exact .inr ⟨refused, .inl kept, why.imp_right fun no _ => no⟩
    · rename_i path
      rcases requeues_of_consumeBlockedJobPortably numbered consumed with
        given | ⟨refused, moved, why⟩
      · exact .inl given
      · exact .inr ⟨refused, .inr ⟨path, moved⟩, why⟩
  rcases handled with ⟨ref, rfl, stays⟩ | ⟨refused, moved⟩
  · obtain ⟨u, w₃, created, rest⟩ := Runs.of_bind rest
    obtain ⟨rfl, rfl⟩ := Runs.of_pure rest
    have kept : w'.db.blocked = w₂.db.blocked := Spares.createReadyExecutionAfterBlockedConsume
      (apart_blocked (by decide)) _ _ _ _ _ _ created
    rw [kept]
    exact .inl ⟨by simp, stays⟩
  · split at rest
    · exact absurd rfl (refused _)
    · obtain ⟨rfl, rfl⟩ := Runs.of_pure rest
      exact .inr ⟨rfl, moved⟩

end Handoffs

/-! ## Releases -/

/-- The waiters whose row a release under `L` replaces: the first one when the slot cannot be
handed over, and on the portable paths, where it is already behind the others of its priority when
a waiter is looked for again, the second one too. -/
def movedByRelease (env : Env) (key : String) (L : Int) (db : Db) : List JobId :=
  if handsOver db key L then []
  else
    match waitersOf db env.config.backendAlias key with
    | [] => []
    | [x] => [x.1.jobId]
    | x :: y :: _ =>
        if env.config.family ≠ .postgresql ∧ x.1.priority = y.1.priority then
          [x.1.jobId, y.1.jobId]
        else [x.1.jobId]

section Releases

variable {env : Env} {key backendAlias : String} {L duration : Int} {w w' : World} {db db' : Db}

/-- Requeueing the first waiter passes the others only by it. -/
theorem Requeues.passes (numbered : WaitersNumbered db.blocked)
    (requeues : Requeues backendAlias key db db') :
    Passes (fun job => ∃ x rest, waitersOf db backendAlias key = x :: rest ∧ job = x.1.jobId)
      db.blocked db'.blocked ∧
      ∀ r ∈ db.blocked.rows, ∃ r' ∈ db'.blocked.rows, r'.jobId = r.jobId := by
  cases requeues with
  | nobody same =>
      rw [same]
      exact ⟨(Stays.refl numbered).passes, fun r mem => ⟨r, mem, rfl⟩⟩
  | @first x rest waiters mk ids waiter blocked =>
      have there := (mem_waitersOf (x := x)).mp (waiters ▸ List.mem_cons_self)
      rw [blocked]
      refine ⟨(Passes.requeue numbered there.1 ids waiter).mono
        fun job eq => ⟨x, rest, waiters, eq⟩, fun r mem => ?_⟩
      by_cases same : r.id = x.1.id
      · refine ⟨mk _, List.mem_append.mpr (.inr (List.mem_singleton.mpr rfl)), ?_⟩
        rw [(waiter _).job, numbered.eq_of_id mem there.1 same]
      · exact ⟨r, List.mem_append.mpr (.inl (List.mem_filter.mpr ⟨mem, by simp [same]⟩)), rfl⟩

/-- A column without repetitions has none among the waiters of a key. -/
theorem nodup_waitersOf {γ : Type} {column : BlockedExecution → γ}
    (nodup : (db.blocked.rows.map column).Nodup) (backendAlias key : String) :
    ((waitersOf db backendAlias key).map (fun x => column x.1)).Nodup := by
  have fewer := selectRelatedJob_fst_sublist db (m := .blocked) (orderBy blockedOrder
    (db.blocked.rows.filter (fun r => r.backendAlias == backendAlias && r.concurrencyKey == key)))
  have sorted : ((orderBy blockedOrder (db.blocked.rows.filter (fun r =>
      r.backendAlias == backendAlias && r.concurrencyKey == key))).map column).Nodup :=
    ((orderBy_perm _ _).map _).nodup_iff.mpr (nodup.sublist (List.filter_sublist.map _))
  have columns := sorted.sublist (fewer.map column)
  rw [List.map_map] at columns
  exact columns

theorem ids_waitersOf (numbered : WaitersNumbered db.blocked) (backendAlias key : String) :
    ((waitersOf db backendAlias key).map (fun x => x.1.id)).Nodup :=
  nodup_waitersOf numbered.ids backendAlias key

/-- Once the first waiter is behind the others of its priority, the next one to be picked, unless
it is that one again, is the second one, and has that priority. -/
theorem second_of_requeued (numbered : WaitersNumbered db.blocked) (jobs : db'.jobs = db.jobs)
    {x y : BlockedExecution × Job} {rest rest' : List (BlockedExecution × Job)}
    (waiters : waitersOf db backendAlias key = x :: rest) {mk : Nat → BlockedExecution}
    (waiter : ∀ n, x.1.SameWaiter (mk n))
    (blocked : db'.blocked = (db.blocked.deleteWhere (fun r => r.id == x.1.id)).insert mk)
    (waiters' : waitersOf db' backendAlias key = y :: rest') (other : y.1.jobId ≠ x.1.jobId) :
    ∃ z others, rest = z :: others ∧ z.1.jobId = y.1.jobId ∧ x.1.priority = z.1.priority := by
  have findJob : ∀ id, db'.findJob id = db.findJob id := by
    intro id
    unfold Db.findJob
    rw [jobs]
  have rows : db'.blocked.rows = db.blocked.rows.filter (fun r => !(r.id == x.1.id)) ++
      [mk db.blocked.nextId] := by
    rw [blocked]
    rfl
  have there := (mem_waitersOf (x := x)).mp (waiters ▸ List.mem_cons_self)
  -- the old rows but the first are still there
  have still : ∀ z ∈ waitersOf db backendAlias key, z.1.id ≠ x.1.id →
      z ∈ waitersOf db' backendAlias key := by
    intro z mem ne
    obtain ⟨old, backend, keyed, found⟩ := mem_waitersOf.mp mem
    refine mem_waitersOf.mpr ⟨?_, backend, keyed, by rw [findJob]; exact found⟩
    rw [rows]
    exact List.mem_append.mpr (.inl (List.mem_filter.mpr ⟨old, by simp [ne]⟩))
  have back : (mk db.blocked.nextId, x.2) ∈ waitersOf db' backendAlias key := by
    refine mem_waitersOf.mpr ⟨?_, ?_, ?_, ?_⟩
    · rw [rows]
      exact List.mem_append.mpr (.inr (List.mem_singleton.mpr rfl))
    · exact (waiter _).backend.trans there.2.1
    · exact (waiter _).key.trans there.2.2.1
    · rw [findJob, (waiter _).job]
      exact there.2.2.2
  have here : y ∈ waitersOf db backendAlias key ∧ y.1.id ≠ x.1.id := by
    obtain ⟨new, backend, keyed, found⟩ := (mem_waitersOf (x := y)).mp (waiters' ▸ List.mem_cons_self)
    rw [rows] at new
    rcases List.mem_append.mp new with old | fresh
    · obtain ⟨old, ne⟩ := List.mem_filter.mp old
      refine ⟨mem_waitersOf.mpr ⟨old, backend, keyed, by rw [← findJob]; exact found⟩, ?_⟩
      simpa using ne
    · rw [List.mem_singleton.mp fresh] at other
      exact absurd (waiter _).job other
  have sorted := pairwise_waitersOf db backendAlias key
  have ids := ids_waitersOf numbered backendAlias key
  rw [waiters] at sorted ids here
  cases rest with
  | nil =>
      have eq := List.mem_singleton.mp here.1
      exact absurd (by rw [eq]) here.2
  | cons z others =>
      refine ⟨z, others, rfl, ?_⟩
      have tail : y ∈ z :: others := by
        rcases List.mem_cons.mp here.1 with rfl | tail
        · exact absurd rfl here.2
        · exact tail
      have differs : z.1.id ≠ x.1.id := by
        rw [List.map_cons, List.map_cons, List.nodup_cons] at ids
        intro same
        exact ids.1 (List.mem_cons.mpr (.inl same.symm))
      have inOld : z ∈ waitersOf db backendAlias key := by
        rw [waiters]
        exact List.mem_cons_of_mem _ List.mem_cons_self
      -- `z` is first among the old ones and `y` among the new ones
      have after := blockedOrder_of_first waiters' (still z inOld differs)
      have before : blockedOrder z.1 y.1 = true := by
        rcases List.mem_cons.mp tail with rfl | tail
        · exact (blockedOrder_of_priority rfl).mpr (Nat.le_refl _)
        · exact (List.pairwise_cons.mp (List.pairwise_cons.mp sorted).2).1 y tail
      have behind := blockedOrder_of_first waiters' back
      have ahead := (List.pairwise_cons.mp sorted).1 y tail
      have priority := (waiter db.blocked.nextId).priority
      simp only [blockedOrder, higherPriority, Bool.or_eq_true, Bool.and_eq_true,
        decide_eq_true_eq, beq_iff_eq] at after before behind ahead
      have sameId : z.1.id = y.1.id := by omega
      have oldY : y ∈ waitersOf db backendAlias key := by
        rw [waiters]
        exact here.1
      refine ⟨?_, by omega⟩
      rw [numbered.eq_of_id (mem_waitersOf.mp inOld).1 (mem_waitersOf.mp oldY).1 sameId]

theorem first_mem_movedByRelease {x : BlockedExecution × Job}
    {rest : List (BlockedExecution × Job)} (keeps : handsOver db key L = false)
    (waiters : waitersOf db env.config.backendAlias key = x :: rest) :
    x.1.jobId ∈ movedByRelease env key L db := by
  unfold movedByRelease
  rw [keeps, waiters, if_neg Bool.false_ne_true]
  cases rest with
  | nil => exact List.mem_singleton.mpr rfl
  | cons y others =>
      dsimp only
      split <;> exact List.mem_cons_self

/-- Off PostgreSQL a release moves the second waiter when it has the priority of the first. -/
theorem second_mem_movedByRelease {x y : BlockedExecution × Job}
    {rest : List (BlockedExecution × Job)} (keeps : handsOver db key L = false)
    (portable : env.config.family ≠ .postgresql)
    (waiters : waitersOf db env.config.backendAlias key = x :: y :: rest)
    (priority : x.1.priority = y.1.priority) : y.1.jobId ∈ movedByRelease env key L db := by
  unfold movedByRelease
  rw [keeps, waiters, if_neg Bool.false_ne_true]
  dsimp only
  rw [if_pos ⟨portable, priority⟩]
  exact List.mem_cons_of_mem _ (List.mem_singleton.mpr rfl)

/-- The waiters are those of the rows and the jobs. -/
theorem waitersOf_congr (blocked : db'.blocked = db.blocked) (jobs : db'.jobs = db.jobs) :
    waitersOf db' backendAlias key = waitersOf db backendAlias key := by
  unfold waitersOf selectRelatedJob Db.findJob
  rw [blocked, jobs]

/-- The release's second look for a waiter: it takes one with the slot that was just freed, or
moves the first one it finds. -/
theorem passes_of_consumeReleased {job : Option JobRef} (numbered : WaitersNumbered w.db.blocked)
    (run : Runs (unblockNextBlockedJob env key L duration .consumeReleased) w job w') :
    Passes (fun job => ∃ x rest, waitersOf w.db env.config.backendAlias key = x :: rest ∧
      job = x.1.jobId) w.db.blocked w'.db.blocked := by
  rcases of_run_unblockNextBlockedJob numbered run with
    ⟨-, stays⟩ | ⟨-, same | ⟨-, requeues⟩, -⟩
  · exact stays.passes
  · rw [same]
    exact (Stays.refl numbered).passes
  · exact (requeues.passes numbered).1

/-- A release moves only those it hands over. -/
theorem passes_of_releaseSlot {u : Unit} (numbered : WaitersNumbered w.db.blocked)
    (run : Runs (releaseSlot env key L duration) w u w') :
    Passes (· ∈ movedByRelease env key L w.db) w.db.blocked w'.db.blocked := by
  obtain ⟨unblocked, w₁, handed, rest⟩ := Runs.of_bind run
  have aloof : Aloof Db.jobs := ⟨fun _ _ => rfl, fun _ _ => rfl, fun _ _ => rfl⟩
  have jobs₁ : w₁.db.jobs = w.db.jobs :=
    Spares.unblockNextBlockedJob aloof env key L duration _ _ _ _ handed
  rcases of_run_unblockNextBlockedJob numbered handed with
    ⟨given, stays⟩ | ⟨rfl, moved, why⟩
  · cases unblocked with
    | none => exact absurd rfl given
    | some job =>
        rw [(Runs.of_pure rest).2]
        exact stays.passes
  · obtain ⟨released, w₂, given, rest⟩ := Runs.of_bind rest
    obtain ⟨again, w₃, consumed, rest⟩ := Runs.of_bind rest
    rw [(Runs.of_pure rest).2]
    have blocked₂ : w₂.db.blocked = w₁.db.blocked :=
      Spares.semaphoreRelease (fun _ _ => rfl) env key L duration _ _ _ given
    have jobs₂ : w₂.db.jobs = w.db.jobs :=
      (Spares.semaphoreRelease (fun _ _ => rfl) env key L duration _ _ _
        given).trans jobs₁
    rw [← blocked₂] at moved
    rcases moved with same | ⟨portable, requeues⟩
    · -- nobody moved yet: the first waiter is looked at once more
      have second := passes_of_consumeReleased (by rw [same]; exact numbered) consumed
      rw [waitersOf_congr same jobs₂, same] at second
      refine second.mono ?_
      rintro job ⟨x, others, waiters, rfl⟩
      rcases why with none | refused
      · rw [none] at waiters
        cases waiters
      · exact first_mem_movedByRelease (refused rfl) waiters
    · have requeues : Requeues env.config.backendAlias key w.db w₂.db := by
        cases requeues with
        | nobody same => exact .nobody (blocked₂.trans same)
        | first waiters ids waiter blocked => exact .first waiters ids waiter (blocked₂.trans blocked)
      obtain ⟨first, complete⟩ := requeues.passes numbered
      have second := passes_of_consumeReleased first.numbered consumed
      refine (first.trans second complete).mono ?_
      rintro job (⟨x, others, waiters, rfl⟩ | ⟨y, others, waiters', rfl⟩)
      · rcases why with none | refused
        · rw [none] at waiters
          cases waiters
        · exact first_mem_movedByRelease (refused rfl) waiters
      · cases requeues with
        | nobody same =>
            rw [waitersOf_congr same jobs₂] at waiters'
            rcases why with none | refused
            · rw [none] at waiters'
              cases waiters'
            · exact first_mem_movedByRelease (refused rfl) waiters'
        | @first x others' waiters mk ids waiter blocked =>
            have keeps : handsOver w.db key L = false := by
              rcases why with none | refused
              · rw [none] at waiters
                cases waiters
              · exact refused rfl
            by_cases again : y.1.jobId = x.1.jobId
            · rw [again]
              exact first_mem_movedByRelease keeps waiters
            · obtain ⟨z, more, rfl, job, priority⟩ :=
                second_of_requeued numbered jobs₂ waiters waiter blocked waiters' again
              rw [← job]
              exact second_mem_movedByRelease keeps (fun family => portable ⟨rfl, family⟩) waiters
                priority

end Releases

end DjQueue
