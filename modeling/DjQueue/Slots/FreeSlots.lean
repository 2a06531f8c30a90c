import DjQueue.Lifecycle.Course
import DjQueue.Slots.ExpiredWaiters
import DjQueue.System.Invariants

/-!
# Free slots go to expired waiters

Where the slots of a key are accounted for, `promote_expired_blocked_jobs` gives all the free ones
to the first expired waiters of the key that have a policy, and no other waiter gets one.
-/

namespace DjQueue

open Relational

/-! ## The free slots of a key -/

/-- The slots a key with this limit has left. -/
def freeSlots (key : String) (L : Int) (t : Table Semaphore) : Int :=
  match t.rows.find? (fun r => r.key == key) with
  | none => L
  | some r => r.value

/-- The row of the key, if it has one, has this limit and counts between nothing and all. -/
def CountsUnder (key : String) (L : Int) (t : Table Semaphore) : Prop :=
  ∀ r, t.rows.find? (fun r => r.key == key) = some r → r.limit = L ∧ 0 ≤ r.value ∧ r.value ≤ L

section Slots

variable {key : String} {L : Int} {t : Table Semaphore}

/-- Under the same limit the count stays. -/
theorem reconciledAvailable_of_limit {r : Semaphore} (limit : r.limit = L) (least : 0 ≤ r.value)
    (most : r.value ≤ L) : reconciledAvailable L r = r.value := by
  unfold reconciledAvailable
  rw [limit]
  omega

/-- The row after a slot was asked for. -/
theorem find?_acquireSlot (expiresAt now : Time) :
    (acquireSlot key L expiresAt now t).2.rows.find? (fun r => r.key == key) =
      match t.rows.find? (fun r => r.key == key) with
      | none => some (newSemaphore key L 1 expiresAt now t.nextId)
      | some r => some (acquireSpec L expiresAt now r).2 := by
  unfold acquireSlot
  split
  · rename_i absent
    rw [Table.rows_insert, List.find?_append, absent]
    simp [newSemaphore]
  · rename_i r found
    rw [Table.rows_updateWhere, find?_updateWhere_key (key_acquireSpec expiresAt now), found]
    rfl

/-- A slot is given exactly if one is free, and then there is one less. -/
theorem acquireSlot_counts (positive : 0 < L) (counts : CountsUnder key L t)
    (expiresAt now : Time) :
    (acquireSlot key L expiresAt now t).1 = decide (0 < freeSlots key L t) ∧
      CountsUnder key L (acquireSlot key L expiresAt now t).2 ∧
      freeSlots key L (acquireSlot key L expiresAt now t).2 =
        if 0 < freeSlots key L t then freeSlots key L t - 1 else freeSlots key L t := by
  have next := @find?_acquireSlot key L t expiresAt now
  unfold freeSlots CountsUnder
  rw [next]
  cases found : t.rows.find? (fun r => r.key == key) with
  | none =>
      dsimp only
      rw [if_pos positive]
      refine ⟨?_, ?_, rfl⟩
      · unfold acquireSlot
        rw [found, decide_eq_true positive]
      · intro r same
        cases same
        exact ⟨rfl, Int.sub_nonneg_of_le positive, Int.sub_le_self L (by decide)⟩
  | some r =>
      rcases counts r found with ⟨limit, least, most⟩
      have available := reconciledAvailable_of_limit limit least most
      dsimp only
      unfold acquireSlot
      rw [found]
      dsimp only
      unfold acquireSpec
      rw [available]
      dsimp only
      split
      · rename_i free
        refine ⟨(decide_eq_true free).symm, ?_, rfl⟩
        intro r' same
        cases same
        exact ⟨rfl, by dsimp only; omega, by dsimp only; omega⟩
      · rename_i full
        refine ⟨(decide_eq_false full).symm, ?_, rfl⟩
        intro r' same
        cases same
        exact ⟨rfl, least, most⟩

/-- The slots of another key do not count. -/
theorem acquireSlot_other {other : String} (ne : key ≠ other) (limit : Int)
    (expiresAt now : Time) (counts : CountsUnder key L t) :
    CountsUnder key L (acquireSlot other limit expiresAt now t).2 ∧
      freeSlots key L (acquireSlot other limit expiresAt now t).2 = freeSlots key L t := by
  unfold CountsUnder freeSlots
  rw [find?_acquireSlot_other ne]
  exact ⟨counts, rfl⟩

end Slots

/-! ## In turn -/

section InTurn

variable {env : Env} {now : Time} {key : String} {L : Int}

/-- A waiter for the key whose policy resolves. -/
def wantsSlot (env : Env) (key : String) (x : BlockedExecution × Job) : Bool :=
  x.1.concurrencyKey == key && (concurrencySettingsForJob env x.2 none).isOk

/-- The jobs with the key that are promoted. -/
def promotedOf (key : String) (settled : List ((BlockedExecution × Job) × Settlement)) : List Job :=
  (settled.filter (fun p => p.1.1.concurrencyKey == key)).filterMap
    (fun p => p.2.promotedJob p.1.2)

section Cons

variable {x : BlockedExecution × Job} (s : Settlement)
  (rest : List ((BlockedExecution × Job) × Settlement))

theorem promotedOf_same (same : x.1.concurrencyKey = key) :
    promotedOf key ((x, s) :: rest) =
      (s.promotedJob x.2).toList ++ promotedOf key rest := by
  unfold promotedOf
  rw [List.filter_cons, if_pos (beq_iff_eq.mpr same), List.filterMap_cons]
  cases s <;> rfl

theorem promotedOf_other (other : x.1.concurrencyKey ≠ key) :
    promotedOf key ((x, s) :: rest) = promotedOf key rest := by
  unfold promotedOf
  rw [List.filter_cons, if_neg]
  exact fun same => other (beq_iff_eq.mp same)

/-- A waiter of the key with a policy wants a slot. -/
theorem wantsSlot_of_policy {settings : ConcurrencySettings} (same : x.1.concurrencyKey = key)
    (policy : concurrencySettingsForJob env x.2 none = .ok settings) :
    wantsSlot env key x = true := by
  rw [wantsSlot, policy, beq_iff_eq.mpr same]
  rfl

theorem not_wantsSlot_of_key (other : x.1.concurrencyKey ≠ key) : ¬ wantsSlot env key x = true := by
  rw [wantsSlot, beq_eq_false_iff_ne.mpr other]
  exact Bool.false_ne_true

end Cons

/-- The waiters that get a slot of the key are the first ones that ask for one, as many as are
free. -/
theorem promoted_of_settlesInTurn (positive : 0 < L) {t t' : Table Semaphore}
    {settled : List ((BlockedExecution × Job) × Settlement)}
    (settles : SettlesInTurn env now t settled t') (counts : CountsUnder key L t)
    (limit : ∀ p ∈ settled, p.1.1.concurrencyKey = key → ∀ settings,
      concurrencySettingsForJob env p.1.2 none = .ok settings → settings.limit = L) :
    promotedOf key settled =
      (((settled.map Prod.fst).filter (wantsSlot env key)).take (freeSlots key L t).toNat).map
        Prod.snd := by
  induction settles with
  | nil t =>
      rw [List.map_nil, List.filter_nil, List.take_nil]
      rfl
  | @promoted t t₁ t₂ x rest settings policy given later ih =>
      have limit' := fun p mem => limit p (List.mem_cons_of_mem _ mem)
      rw [List.map_cons, List.filter_cons]
      by_cases same : x.1.concurrencyKey = key
      · have isLimit := limit (x, .promoted) List.mem_cons_self same settings policy
        rcases acquireSlot_counts positive counts (now + seconds settings.durationSeconds) now with
          ⟨free, counts₁, left⟩
        rw [same, isLimit] at given
        rw [given] at free counts₁ left
        have free := of_decide_eq_true free.symm
        rw [if_pos free] at left
        dsimp only at left
        have more : (freeSlots key L t).toNat = (freeSlots key L t₁).toNat + 1 := by omega
        rw [promotedOf_same _ _ same, ih counts₁ limit', if_pos (wantsSlot_of_policy same policy),
          more, List.take_succ_cons, List.map_cons]
        rfl
      · rcases acquireSlot_other (Ne.symm same) settings.limit
          (now + seconds settings.durationSeconds) now counts with ⟨counts₁, left⟩
        rw [given] at counts₁ left
        rw [promotedOf_other _ _ same, ih counts₁ limit', left, if_neg (not_wantsSlot_of_key same)]
  | @renewed t t₁ t₂ x rest settings policy refused later ih =>
      have limit' := fun p mem => limit p (List.mem_cons_of_mem _ mem)
      rw [List.map_cons, List.filter_cons]
      by_cases same : x.1.concurrencyKey = key
      · have isLimit := limit _ List.mem_cons_self same settings policy
        rcases acquireSlot_counts positive counts (now + seconds settings.durationSeconds) now with
          ⟨full, counts₁, left⟩
        rw [same, isLimit] at refused
        rw [refused] at full counts₁ left
        have full := of_decide_eq_false full.symm
        rw [if_neg full] at left
        have none_ : (freeSlots key L t).toNat = 0 := by omega
        rw [promotedOf_same _ _ same, ih counts₁ limit', left, none_, List.take_zero,
          List.take_zero]
        rfl
      · rcases acquireSlot_other (Ne.symm same) settings.limit
          (now + seconds settings.durationSeconds) now counts with ⟨counts₁, left⟩
        rw [refused] at counts₁ left
        rw [promotedOf_other _ _ same, ih counts₁ limit', left, if_neg (not_wantsSlot_of_key same)]
  | @failed t t₂ x message rest policy later ih =>
      have limit' := fun p mem => limit p (List.mem_cons_of_mem _ mem)
      have quiet : ¬ wantsSlot env key x = true := by
        rw [wantsSlot, policy, show (Except.error _ : Except PyError _).isOk = false from rfl,
          Bool.and_false]
        exact Bool.false_ne_true
      rw [List.map_cons, List.filter_cons, if_neg quiet, ← ih counts limit']
      by_cases same : x.1.concurrencyKey = key
      · rw [promotedOf_same _ _ same]
        rfl
      · rw [promotedOf_other _ _ same]

/-- A waiter fails only where it has no policy. -/
theorem policy_of_failed {t t' : Table Semaphore}
    {settled : List ((BlockedExecution × Job) × Settlement)}
    (settles : SettlesInTurn env now t settled t') :
    ∀ p ∈ settled, ∀ message, p.2 = .failed message →
      concurrencySettingsForJob env p.1.2 none = .error (.dispatchPolicyError message) := by
  induction settles with
  | nil t => exact fun _ mem => absurd mem List.not_mem_nil
  | promoted policy given later ih =>
      intro p mem message failed
      rcases List.mem_cons.mp mem with rfl | mem
      · cases failed
      · exact ih p mem message failed
  | renewed policy refused later ih =>
      intro p mem message failed
      rcases List.mem_cons.mp mem with rfl | mem
      · cases failed
      · exact ih p mem message failed
  | failed policy later ih =>
      intro p mem message failed
      rcases List.mem_cons.mp mem with rfl | mem
      · cases failed
        exact policy
      · exact ih p mem message failed

/-- The promotions of the batch by key. -/
theorem filter_promoted {settled : List ((BlockedExecution × Job) × Settlement)}
    (keyed : ∀ p ∈ settled, p.1.2.concurrencyKey = some p.1.1.concurrencyKey) :
    (settled.filterMap (fun p => p.2.promotedJob p.1.2)).filter
      (fun j => j.concurrencyKey == some key) = promotedOf key settled := by
  induction settled with
  | nil => rfl
  | cons p rest ih =>
      rcases p with ⟨x, s⟩
      have here := keyed (x, s) List.mem_cons_self
      have ih := ih fun p mem => keyed p (List.mem_cons_of_mem _ mem)
      by_cases same : x.1.concurrencyKey = key
      · rw [promotedOf_same _ _ same, ← ih, List.filterMap_cons]
        cases s with
        | promoted =>
            dsimp only [Settlement.promotedJob]
            rw [List.filter_cons, if_pos (by rw [here, same]; exact beq_self_eq_true _)]
            rfl
        | failed message => rfl
        | renewed expiresAt => rfl
      · rw [promotedOf_other _ _ same, ← ih, List.filterMap_cons]
        cases s with
        | promoted =>
            dsimp only [Settlement.promotedJob]
            rw [List.filter_cons, if_neg]
            rw [here, beq_iff_eq, Option.some_inj]
            exact same
        | failed message => rfl
        | renewed expiresAt => rfl

theorem mem_promotedOf {settled : List ((BlockedExecution × Job) × Settlement)} {job : Job} :
    job ∈ promotedOf key settled ↔
      ∃ x, (x, Settlement.promoted) ∈ settled ∧ x.1.concurrencyKey = key ∧ x.2 = job := by
  unfold promotedOf
  rw [List.mem_filterMap]
  constructor
  · intro found
    rcases found with ⟨⟨x, s⟩, mem, same⟩
    rcases List.mem_filter.mp mem with ⟨mem, isKey⟩
    cases s with
    | promoted => exact ⟨x, mem, beq_iff_eq.mp isKey, Option.some.inj same⟩
    | failed message => cases same
    | renewed expiresAt => cases same
  · intro found
    rcases found with ⟨x, mem, isKey, rfl⟩
    exact ⟨(x, .promoted), List.mem_filter.mpr ⟨mem, beq_iff_eq.mpr isKey⟩, rfl⟩

end InTurn

/-! ## A call -/

section Call

variable {key : String} {L : Int} {db : Db}

/-- What the audit of a tracked key says of its row. -/
theorem Accounts.countsUnder {a : Audit} (good : Accounts a [] 0 db)
    (tracked : a.tracked = some (key, L)) :
    CountsUnder key L db.semaphores ∧
      (freeSlots key L db.semaphores = L - (db.activeJobs key).length) := by
  have slots := good.slots _ tracked
  rw [good.active_eq_length tracked, Nat.add_zero] at slots
  unfold CountsUnder freeSlots
  dsimp only at slots
  cases found : db.semaphores.rows.find? (fun r => r.key == key) with
  | none =>
      rw [found] at slots
      refine ⟨nofun, ?_⟩
      dsimp only at slots ⊢
      omega
  | some r =>
      rw [found] at slots
      rcases slots with ⟨limit, least, sum⟩
      refine ⟨?_, by dsimp only; omega⟩
      intro r' same
      cases same
      exact ⟨limit, least, by omega⟩

/-- An expired waiter and its job, which has the key it waits for. -/
theorem Accounts.expired_waiter {a : Audit} (good : Accounts a [] 0 db) {env : Env} {now : Time}
    {batchSize : Int} {x : BlockedExecution × Job} (mem : x ∈ expiredBatch env now batchSize db) :
    x.2 ∈ db.jobs ∧ x.2.id = x.1.jobId ∧ x.2.concurrencyKey = some x.1.concurrencyKey := by
  have found := (loaded_expiredBatch mem).2
  rcases good.known_of_row (m := .blocked) (row_expiredBatch x mem) with
    ⟨j, there, same, found', -, columns⟩
  rw [show db.findJob x.1.jobId = some j from found', Option.some_inj] at found
  rw [← found]
  exact ⟨there, same, columns.key _ rfl⟩

end Call

end DjQueue
