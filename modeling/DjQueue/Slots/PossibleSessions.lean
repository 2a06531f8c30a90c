import DjQueue.Operations.Jobs
import DjQueue.Slots.PossibleRows

/-!
# Sessions that keep the slot counts possible

Slots are taken and given back under limits that come from a policy, and those are positive; a job
whose policy does not resolve gives its slot back under the limit of the row.  A slot that is taken
from the row as it is was given back just before, under the same limit.
-/

namespace DjQueue

open Relational

/-- The semaphores of a world. -/
def slotsOf (w : World) : Table Semaphore := w.db.semaphores

/-- Whenever the session returns, the invariant of the slots that held still holds. -/
def UpholdsSlots {α : Type} (I : Table Semaphore → Prop) (x : Op α) : Prop :=
  Upholds slotsOf I x

namespace UpholdsSlots

variable {α β : Type} {I : Table Semaphore → Prop} {env : Env} {key : String} {L duration : Int}

theorem of_spares {x : Op α} (spares : Spares Db.semaphores x) : UpholdsSlots I x :=
  Upholds.of_same spares

theorem of_reads {x : Op α} (reads : Reads x) : UpholdsSlots I x := of_spares (.of_reads reads)

theorem pure (a : α) : UpholdsSlots I (Pure.pure a : Op α) := Upholds.pure a

theorem throw (e : PyError) : UpholdsSlots I (throw e : Op α) := Upholds.throw e

theorem bind {x : Op α} {f : α → Op β} (first : UpholdsSlots I x)
    (second : ∀ a, UpholdsSlots I (f a)) : UpholdsSlots I (x >>= f) := Upholds.bind first second

/-- A first part that also tells something of its value. -/
theorem bind_of {P : α → Prop} {x : Op α} {f : α → Op β}
    (first : ∀ w a w', I (slotsOf w) → Runs x w a w' → I (slotsOf w') ∧ P a)
    (second : ∀ a, P a → UpholdsSlots I (f a)) : UpholdsSlots I (x >>= f) :=
  Upholds.bind_of first second

theorem runIf (c : Bool) {x : Op Unit} (body : UpholdsSlots I x) : UpholdsSlots I (runIf c x) :=
  Upholds.runIf c body

theorem forM {f : β → Op Unit} (body : ∀ b, UpholdsSlots I (f b)) (l : List β) :
    UpholdsSlots I (l.forM f) := Upholds.forM body l

theorem atomic {x : Op α} (body : UpholdsSlots I x) : UpholdsSlots I (transactionAtomic x) :=
  Upholds.atomic body

theorem ofExcept (x : Except PyError α) : UpholdsSlots I (MonadExcept.ofExcept x : Op α) :=
  Upholds.ofExcept x

theorem modifyDb {f : Db → Db} (keeps : ∀ db, I db.semaphores → I (f db).semaphores) :
    UpholdsSlots I (modifyDb f) := by
  intro w u w' run holds
  rw [slotsOf, of_run_modifyDb run]
  exact keeps w.db holds

theorem updateSemaphore {order : EvaluationOrder} {u : Update Semaphore}
    (keeps : ∀ t, I t → I (t.updateWhere (fun r => r.key == key) (u.run order))) :
    UpholdsSlots I (updateSemaphore order key u) :=
  bind (of_reads Reads.getDb) fun _ =>
    bind (modifyDb fun _ holds => keeps _ holds) fun _ => pure _

theorem updateSlots {family : BackendFamily} {s : SlotStatement}
    (keeps : ∀ t, I t →
      I (t.updateWhere (fun r => r.key == key) (s.update.run family.evaluationOrder))) :
    UpholdsSlots I (updateSlots family key s) :=
  bind (of_reads Reads.getDb) fun _ => bind (of_reads (Reads.ensureFits _ _)) fun _ =>
    updateSemaphore keeps

/-! ## Slots that are taken -/

theorem semaphoreAcquire (positive : 0 < L) :
    UpholdsSlots PossibleSlots (semaphoreAcquire env key L duration) := by
  intro w given w' run possible
  have acquires := of_run_semaphoreAcquire possible.numbered run
  unfold slotsOf at possible ⊢
  generalize w'.db = db' at acquires ⊢
  cases acquires with
  | opened absent expiresAt now =>
      apply possible.insert
      · exact fun _ => rfl
      · exact ne_of_findSemaphore_none absent
      · exact (under_newSemaphore positive expiresAt now key (by decide) positive _).possible
  | asked found expiresAt now =>
      apply possible.update (sameRow_acquireRow _ L expiresAt now)
      intro r mem _ _
      rw [acquireRow_eq_spec positive expiresAt now r _ (possible.numbered.bound r mem).1]
      exact (under_acquireSpec positive expiresAt now r).possible

theorem semaphoreAcquireMany (env : Env) (positive : 0 < L) (count : Int) :
    UpholdsSlots PossibleSlots (semaphoreAcquireMany env key count L duration) := by
  unfold DjQueue.semaphoreAcquireMany
  split
  · exact pure _
  · rename_i asks
    refine bind (of_reads Reads.timezoneNow) fun now => bind (ofExcept _) fun expiresAt => ?_
    refine bind (of_reads Reads.timezoneNow) fun stamp => ?_
    intro w acquired w' run possible
    rcases Runs.of_bind run with ⟨db, w₁, got, rest₁⟩
    rcases of_run_getDb got with ⟨rfl, rfl⟩
    rcases Runs.of_bind rest₁ with ⟨v, w₂, checked, rest⟩
    rcases of_run_ensureFits checked with ⟨-, rfl⟩
    unfold slotsOf at possible ⊢
    split at rest
    · rename_i absent
      rcases Runs.of_bind rest with ⟨u, w₂, inserted, rest⟩
      rcases Runs.of_pure rest with ⟨-, rfl⟩
      rw [of_run_modifyDb inserted]
      apply possible.insert
      · exact fun _ => rfl
      · exact ne_of_findSemaphore_none absent
      · exact (under_newSemaphore positive _ _ key (by omega) (by omega) _).possible
    · rcases Runs.of_bind rest with ⟨u, w₂, saved, rest⟩
      rcases Runs.of_pure rest with ⟨-, rfl⟩
      rw [of_run_modifyDb saved]
      apply possible.update (sameRow_acquireManyRow _ _ _ _)
      exact fun r _ _ _ => (under_acquireManyRow positive _ _ r (by omega)).possible

/-! ## Hand-offs -/

/-- The update that the mode makes keeps the invariant. -/
def UpdateKeeps (I : Table Semaphore → Prop) (key : String) (L : Int) (mode : SlotHandoffMode) :
    Prop :=
  ∀ order expiresAt now t, I t →
    I (t.updateWhere (fun r => r.key == key) ((mode.update L expiresAt now).run order))

/-- The hand-off of a released slot keeps possible counts. -/
theorem updateKeeps_releaseClaimed (positive : 0 < L) :
    UpdateKeeps PossibleSlots key L .releaseClaimed := by
  intro order expiresAt now t possible
  apply possible.update (sameRow_handoffReleasedClaimedSlotUpdate L expiresAt now order)
  exact fun r _ _ inside => possible_handoffReleasedClaimedSlot positive order expiresAt now inside

/-- The portable hand-off keeps them under the limit. -/
theorem updateKeeps_consumeReleased (positive : 0 < L) :
    UpdateKeeps (PossibleUnder key L) key L .consumeReleased := by
  intro order expiresAt now t under
  apply PossibleUnder.update under.toPossibleSlots
    (sameRow_consumeReleasedSemaphoreSlotUpdate L expiresAt now order)
  exact fun r mem same inside => possible_consumeReleasedSemaphoreSlot positive order expiresAt now
    inside (under.limited r mem same)

theorem acquireHandoffSlot {mode : SlotHandoffMode} (keeps : UpdateKeeps I key L mode)
    (now : Time) : UpholdsSlots I (acquireHandoffSlot env mode key L duration now) := by
  cases mode with
  | releaseClaimed =>
      exact bind (ofExcept _) fun _ => bind (updateSlots (keeps _ _ _)) fun _ => pure _
  | consumeReleased =>
      exact bind (ofExcept _) fun _ => bind (updateSlots (keeps _ _ _)) fun _ => pure _

theorem consumeBlockedJobForSlot {mode : SlotHandoffMode} (keeps : UpdateKeeps I key L mode)
    (now : Time) : UpholdsSlots I (consumeBlockedJobForSlot env mode key L duration now) := by
  unfold DjQueue.consumeBlockedJobForSlot
  split
  · rename_i path
    have keeps := path.1 ▸ keeps
    refine bind ?_ ?_
    · refine bind (ofExcept _) fun expiresAt => bind (of_reads Reads.getDb) fun db =>
        bind (of_reads (Reads.ensureFits _ _)) fun _ => ?_
      split
      · exact pure _
      · refine bind (updateSlots (keeps _ _ _)) fun updated => ?_
        split
        · exact pure _
        · exact bind (of_spares (.deleteRowsWhere (m := .blocked) (apart_semaphores _) _))
            fun _ => pure _
    · intro consumed
      split
      · exact pure _
      · split
        · exact throw _
        · exact pure _
  · refine bind (of_spares (.consumeNextBlockedJob (apart_semaphores _) env key)) fun consumed => ?_
    split
    · exact pure _
    · split
      · exact throw _
      · refine bind (acquireHandoffSlot keeps now) fun given => ?_
        refine bind ?_ ?_
        · exact runIf _ (of_spares (.createBlockedExecution (apart_semaphores _) _ _ _ _ _ _ _))
        · exact fun _ => pure _

theorem unblockNextBlockedJob {mode : SlotHandoffMode} (keeps : UpdateKeeps I key L mode) :
    UpholdsSlots I (unblockNextBlockedJob env key L duration mode) := by
  refine bind (of_reads Reads.timezoneNow) fun now => ?_
  refine atomic ?_
  refine bind (consumeBlockedJobForSlot keeps now) fun slot => ?_
  split
  · exact bind (of_spares (.createReadyExecutionAfterBlockedConsume (apart_semaphores _)
      _ _ _)) fun _ => pure _
  · exact pure _

/-! ## Releases -/

section Releases

/-- The release brings the row under its limit. -/
theorem under_of_semaphoreRelease (positive : 0 < L) {w w' : World} {given : Bool}
    (possible : PossibleSlots w.db.semaphores)
    (run : Runs (semaphoreRelease env key L duration) w given w') :
    PossibleUnder key L w'.db.semaphores := by
  rcases checked_of_run_semaphoreRelease run with ⟨now, w₁, read, -, -, n, -, updated⟩
  rw [← of_run_timezoneNow read] at possible
  rw [semaphores_of_updateSemaphore updated]
  apply PossibleUnder.update possible (sameRow_semaphoreReleaseUpdate L _ _ _)
  exact fun r _ _ _ => possible_semaphoreRelease positive _ _ _

theorem semaphoreRelease (positive : 0 < L) :
    UpholdsSlots PossibleSlots (semaphoreRelease env key L duration) :=
  fun _ _ _ run possible => (under_of_semaphoreRelease positive possible run).toPossibleSlots

theorem releaseSlot (positive : 0 < L) :
    UpholdsSlots PossibleSlots (releaseSlot env key L duration) := by
  refine bind (unblockNextBlockedJob (updateKeeps_releaseClaimed positive)) fun unblocked => ?_
  split
  · exact pure _
  · intro w u w' run possible
    rcases Runs.of_bind run with ⟨given, w₁, released, rest⟩
    have under := under_of_semaphoreRelease positive possible released
    rcases Runs.of_bind rest with ⟨again, w₂, consumed, rest⟩
    rw [(Runs.of_pure rest).2]
    exact (unblockNextBlockedJob (updateKeeps_consumeReleased positive) _ _ _ consumed
      under).toPossibleSlots

/-- The limit in the row, or one, is positive. -/
theorem PossibleSlots.positive_limit {db : Db} (possible : PossibleSlots db.semaphores)
    (key : String) : 0 < semaphoreLimitOrOne db key := by
  unfold semaphoreLimitOrOne
  cases found : db.findSemaphore key with
  | none => exact Int.zero_lt_one
  | some r =>
      have positive := (possible.rows r (mem_of_findSemaphore found).1).limit
      simp only [Option.map_some]
      split
      · exact Int.zero_lt_one
      · exact Int.zero_lt_one
      · rename_i same
        cases same
        exact positive

/-- The settings a slot is released under have a positive limit. -/
theorem positive_of_releaseSettings {job : Job} {task : Option Imported} (w : World)
    (settings : Int × Int) (w' : World) (possible : PossibleSlots w.db.semaphores)
    (run : Runs (releaseSettings env job key task) w settings w') :
    PossibleSlots w'.db.semaphores ∧ 0 < settings.1 := by
  rcases Runs.of_bind run with ⟨db, w₁, got, rest⟩
  rcases of_run_getDb got with ⟨rfl, rfl⟩
  split at rest
  · rename_i policy
    rcases Runs.of_pure rest with ⟨rfl, rfl⟩
    exact ⟨possible, (positive_of_concurrencySettingsForJob policy).1⟩
  · rcases Runs.of_pure rest with ⟨rfl, rfl⟩
    exact ⟨possible, PossibleSlots.positive_limit possible key⟩
  · exact (Runs.of_throw rest).elim

theorem releaseConcurrencySlot (env : Env) (job : Job) (task : Option Imported) :
    UpholdsSlots PossibleSlots (releaseConcurrencySlot env job task) := by
  unfold DjQueue.releaseConcurrencySlot
  split
  · exact pure _
  · exact bind_of positive_of_releaseSettings fun settings positive => releaseSlot positive

theorem releaseAll (env : Env) :
    ∀ jobs : List Job, UpholdsSlots PossibleSlots (releaseAll env jobs)
  | [] => pure _
  | job :: jobs => bind (releaseConcurrencySlot env job none) fun _ => releaseAll env jobs

theorem releaseRecoveredConcurrencyGroup (positive : 0 < L) (count : Nat) :
    UpholdsSlots PossibleSlots
      (releaseRecoveredConcurrencyGroup env key count L duration) := by
  refine bind (of_reads Reads.timezoneNow) fun now => bind (ofExcept _) fun expiresAt => ?_
  intro w jobs w' run possible
  rcases Runs.of_bind run with ⟨db, w₁, got, rest⟩
  rcases of_run_getDb got with ⟨rfl, rfl⟩
  rcases Runs.of_bind rest with ⟨u, w₂, checked, rest⟩
  rw [(of_run_ensureStateRowsBelongToBackend checked).1] at rest
  split at rest
  · rw [(Runs.of_pure rest).2]
    exact possible
  · rename_i r found
    rcases Runs.of_bind rest with ⟨promoted, w₃, consumed, rest⟩
    have fewer := length_le_of_consumeSelectedRows consumed
    -- never more waiters than slots the group gives back
    have bounds : (promoted.length : Int) ≤ groupAvailable count L r ∧
        groupAvailable count L r ≤ L := by
      rw [pySlice, List.length_take] at fewer
      unfold groupAvailable at fewer ⊢
      split at fewer <;> omega
    have possible₃ : PossibleSlots w₃.db.semaphores := of_spares
      (.consumeSelectedRows (m := .blocked) (apart_semaphores _) env _ _) _ _ _ consumed possible
    refine (bind (of_reads Reads.timezoneNow) fun stamp => bind (of_reads (Reads.ensureFits _ _))
      fun _ => bind (modifyDb fun db inside => ?_) fun _ => bind (ofExcept _) fun _ => bind (of_spares
        (.bulkCreateReadyExecutions (apart_semaphores _) _ _)) fun _ => pure _) _ _ _ rest possible₃
    apply PossibleSlots.update inside
    · exact fun _ => ⟨rfl, rfl⟩
    · exact fun r' _ _ _ => (under_groupReleaseRow positive _ _ r' bounds.1 (by omega)
        bounds.2).possible

/-- The settings looked up have a positive limit. -/
theorem positive_of_releaseSettingsOfAll :
    ∀ (jobs : List Job) (w : World) (all : List (Int × Int)) (w' : World),
      PossibleSlots w.db.semaphores → Runs (releaseSettingsOfAll env key jobs) w all w' →
      PossibleSlots w'.db.semaphores ∧ ∀ settings ∈ all, 0 < settings.1
  | [], w, all, w', possible, run => by
      rcases Runs.of_pure run with ⟨rfl, rfl⟩
      exact ⟨possible, fun _ mem => absurd mem List.not_mem_nil⟩
  | job :: jobs, w, all, w', possible, run => by
      rcases Runs.of_bind run with ⟨settings, w₁, first, rest⟩
      rcases positive_of_releaseSettings w settings w₁ possible first with ⟨possible₁, positive⟩
      rcases Runs.of_bind rest with ⟨others, w₂, later, rest⟩
      rcases positive_of_releaseSettingsOfAll jobs w₁ others w₂ possible₁ later with
        ⟨possible₂, positives⟩
      rcases Runs.of_pure rest with ⟨rfl, rfl⟩
      refine ⟨possible₂, ?_⟩
      intro s mem
      rcases List.mem_cons.mp mem with rfl | mem
      · exact positive
      · exact positives s mem

theorem releaseRecoveredGroups (env : Env) :
    ∀ groups : List (String × List Job),
      UpholdsSlots PossibleSlots (releaseRecoveredGroups env groups)
  | [] => pure _
  | (key, jobs) :: groups => by
      refine bind (bind_of (positive_of_releaseSettingsOfAll jobs) fun all positive => ?_)
        fun _ => bind (releaseRecoveredGroups env groups) fun _ => pure _
      split
      · rename_i limit duration same
        have mem : (limit, duration) ∈ distinct all := same ▸ List.mem_cons_self
        exact bind (releaseRecoveredConcurrencyGroup (positive _ (mem_distinct.mp mem)) _)
          fun _ => pure _
      · exact pure _

/-- The release of the jobs that no group could release. -/
theorem releaseFallback (env : Env) (jobs : List Job) :
    UpholdsSlots PossibleSlots (releaseFallback env jobs) := by
  refine bind ?_ fun _ => releaseAll env _
  unfold DjQueue.releaseRecoveredConcurrencySlots
  split
  · exact throw _
  · exact releaseRecoveredGroups env _

end Releases

end UpholdsSlots

end DjQueue
