import DjQueue.Enqueue.Placement
import DjQueue.Slots.RepeatedAcquire

/-!
# What a list of calls asks for

Enqueued one at a time, the calls of a key ask for its slots one after the other.  Whether all the
numbers on the way are in range is seen beforehand: for each policy that is asked for, from the row
of its key and the number of calls.
-/

namespace DjQueue

open Relational

/-- A concurrency key, and the policy its slots are asked for under. -/
abbrev Asked := String × ConcurrencySettings

/-- What a decision comes to on the semaphores, at a fixed time. -/
def serveDecision (now : Time) : DispatchDecision → Table Semaphore →
    DispatchOutcome × Table Semaphore
  | .outcome o, t => (o, t)
  | .concurrency key settings, t =>
      (concurrencyDispatchOutcome settings.onConflict (serveSlot now (key, settings) t).1,
        (serveSlot now (key, settings) t).2)

/-- The slot an entry asks for, with its settings. -/
def DispatchEntry.asks (e : DispatchEntry) : Option Asked :=
  match e.decision with
  | .outcome _ => none
  | .concurrency key settings => some (key, settings)

/-- What the dispatch of a job asks for, unless it comes to an outcome without a slot. -/
def Job.asks (env : Env) (now : Time) (job : Job) : Option Asked :=
  match dispatchDecision env job now none with
  | .ok (.concurrency key settings) => some (key, settings)
  | _ => none

/-- The deadline of a policy is a time, and so many acquires in a row are in range. -/
structure AskedFits (family : BackendFamily) (now : Time) (t : Table Semaphore) (k : Asked)
    (n : Nat) : Prop where
  deadline : isDatetime (now + seconds k.2.durationSeconds) = true
  numbers : RepeatsFit family k.2.limit n (t.rows.find? (fun r => r.key == k.1))

instance (family : BackendFamily) (now : Time) (t : Table Semaphore) (k : Asked) (n : Nat) :
    Decidable (AskedFits family now t k n) :=
  decidable_of_iff (isDatetime (now + seconds k.2.durationSeconds) = true ∧
      RepeatsFit family k.2.limit n (t.rows.find? (fun r => r.key == k.1)))
    ⟨fun h => ⟨h.1, h.2⟩, fun h => ⟨h.deadline, h.numbers⟩⟩

/-- Every slot that is asked for can be counted and timed. -/
def SlotsFit (family : BackendFamily) (now : Time) (asked : List Asked) (t : Table Semaphore) :
    Prop :=
  ∀ k ∈ asked, AskedFits family now t k (asked.count k)

/-- A decision computes nothing, or what one acquire does. -/
def DecisionFits (family : BackendFamily) (now : Time) (t : Table Semaphore) :
    DispatchDecision → Prop
  | .outcome _ => True
  | .concurrency key settings => isDatetime (now + seconds settings.durationSeconds) = true ∧
      AcquireFits family settings.limit (t.rows.find? (fun r => r.key == key))

/-- Slots of one key are asked for under one policy, with a positive limit. -/
structure OnePolicy (asked : List Asked) : Prop where
  shared : ∀ k ∈ asked, ∀ k' ∈ asked, k.1 = k'.1 → k = k'
  positive : ∀ k ∈ asked, 0 < k.2.limit

/-- Fewer requests share their settings as well. -/
theorem OnePolicy.tail {k : Asked} {asked : List Asked} (one : OnePolicy (k :: asked)) :
    OnePolicy asked where
  shared k' mem k'' mem' := one.shared k' (List.mem_cons_of_mem _ mem) k'' (List.mem_cons_of_mem _ mem')
  positive k' mem := one.positive k' (List.mem_cons_of_mem _ mem)

section Fits

variable {family : BackendFamily} {now : Time} {t : Table Semaphore} {k : Asked}
  {asked : List Asked}

/-- A limit that can be counted with fits its column. -/
theorem holds_of_acquireFits {limit : Int} {row : Option Semaphore}
    (fits : AcquireFits family limit row) : family.holds limit = true :=
  List.all_eq_true.mp fits limit List.mem_cons_self

/-- The next acquire of a policy, and those after it on the row it leaves. -/
theorem askedFits_succ (positive : 0 < k.2.limit) (n : Nat) :
    AskedFits family now t k (n + 1) ↔
      isDatetime (now + seconds k.2.durationSeconds) = true ∧
        AcquireFits family k.2.limit (t.rows.find? (fun r => r.key == k.1)) ∧
          AskedFits family now (serveSlot now k t).2 k n := by
  have step := fun holds => repeatsFit_succ positive k.1 (now + seconds k.2.durationSeconds) now
    family n t holds
  constructor
  · rintro ⟨deadline, numbers⟩
    obtain ⟨first, later⟩ := numbers n.succ_pos
    exact ⟨deadline, first, deadline,
      (step (holds_of_acquireFits first)).mpr fun more => later (by omega)⟩
  · rintro ⟨deadline, first, -, later⟩
    exact ⟨deadline, fun _ => ⟨first, fun more =>
      (step (holds_of_acquireFits first)).mp later (by omega)⟩⟩

/-- Another key's row is left alone. -/
theorem askedFits_other {k' : Asked} (apart : k'.1 ≠ k.1) (n : Nat) :
    AskedFits family now (serveSlot now k t).2 k' n ↔ AskedFits family now t k' n := by
  have same : (serveSlot now k t).2.rows.find? (fun r => r.key == k'.1) =
      t.rows.find? (fun r => r.key == k'.1) := find?_acquireSlot_other apart _ _ _ t
  constructor
  · rintro ⟨deadline, numbers⟩
    exact ⟨deadline, same ▸ numbers⟩
  · rintro ⟨deadline, numbers⟩
    exact ⟨deadline, same.symm ▸ numbers⟩

/-- What is asked for is in range exactly when the first slot is, and then the others are. -/
theorem slotsFit_cons (one : OnePolicy (k :: asked)) :
    SlotsFit family now (k :: asked) t ↔
      isDatetime (now + seconds k.2.durationSeconds) = true ∧
        AcquireFits family k.2.limit (t.rows.find? (fun r => r.key == k.1)) ∧
          SlotsFit family now asked (serveSlot now k t).2 := by
  have first : AskedFits family now t k (asked.count k + 1) ↔ _ :=
    askedFits_succ (one.positive k List.mem_cons_self) (asked.count k)
  rw [← List.count_cons_self] at first
  have other : ∀ k' ∈ asked, k' ≠ k → (AskedFits family now (serveSlot now k t).2 k'
      (asked.count k') ↔ AskedFits family now t k' ((k :: asked).count k')) := by
    intro k' mem ne
    rw [List.count_cons_of_ne (Ne.symm ne)]
    refine askedFits_other (fun same => ne ?_) _
    exact one.shared k' (List.mem_cons_of_mem _ mem) k List.mem_cons_self same
  constructor
  · intro fits
    obtain ⟨deadline, acquire, later⟩ := first.mp (fits k List.mem_cons_self)
    refine ⟨deadline, acquire, fun k' mem => ?_⟩
    by_cases same : k' = k
    · rw [same]
      exact later
    · exact (other k' mem same).mpr (fits k' (List.mem_cons_of_mem _ mem))
  · rintro ⟨deadline, acquire, later⟩ k' mem
    by_cases same : k' = k
    · rw [same]
      refine first.mpr ⟨deadline, acquire, ?_⟩
      by_cases again : k ∈ asked
      · exact later k again
      · rw [List.count_eq_zero_of_not_mem again]
        exact ⟨deadline, fun none => absurd none (Nat.lt_irrefl 0)⟩
    · have inside := (List.mem_cons.mp mem).resolve_left same
      exact (other k' inside same).mp (later k' inside)

end Fits

/-! ## Calls -/

/-- The columns of the jobs take their policies, and what the calls ask for is in range. -/
structure CallsFit (env : Env) (now : Time) (jobs : List Job) (t : Table Semaphore) : Prop where
  columns : ∀ j ∈ jobs, j.policyColumns.all env.config.family.holds = true
  slots : SlotsFit env.config.family now (jobs.filterMap (Job.asks env now)) t

instance (env : Env) (now : Time) (jobs : List Job) (t : Table Semaphore) :
    Decidable (CallsFit env now jobs t) :=
  decidable_of_iff ((∀ j ∈ jobs, j.policyColumns.all env.config.family.holds = true) ∧
      ∀ k ∈ jobs.filterMap (Job.asks env now), AskedFits env.config.family now t k
        ((jobs.filterMap (Job.asks env now)).count k))
    ⟨fun h => ⟨h.1, h.2⟩, fun h => ⟨h.columns, h.slots⟩⟩

/-- The same of the entries the batch form makes of the calls. -/
structure EntriesFit (env : Env) (now : Time) (entries : List DispatchEntry) (t : Table Semaphore) :
    Prop where
  columns : ∀ e ∈ entries, e.job.policyColumns.all env.config.family.holds = true
  slots : SlotsFit env.config.family now (entries.filterMap DispatchEntry.asks) t

section Entries

variable {env : Env} {now : Time} {t : Table Semaphore} {e : DispatchEntry}
  {entries : List DispatchEntry}

/-- The first entry is in range where its turn finds the semaphores, and the others after it. -/
theorem entriesFit_cons (one : OnePolicy ((e :: entries).filterMap DispatchEntry.asks)) :
    EntriesFit env now (e :: entries) t ↔
      e.job.policyColumns.all env.config.family.holds = true ∧
        DecisionFits env.config.family now t e.decision ∧
          EntriesFit env now entries (serveDecision now e.decision t).2 := by
  obtain ⟨position, job, decision⟩ := e
  cases decision with
  | outcome o =>
      constructor
      · rintro ⟨columns, slots⟩
        exact ⟨columns _ List.mem_cons_self, trivial,
          fun e mem => columns e (List.mem_cons_of_mem _ mem), slots⟩
      · rintro ⟨column, -, columns, slots⟩
        exact ⟨List.forall_mem_cons.mpr ⟨column, columns⟩, slots⟩
  | concurrency key settings =>
      have step : SlotsFit env.config.family now (_ :: _) t ↔ _ := slotsFit_cons one
      constructor
      · rintro ⟨columns, slots⟩
        obtain ⟨deadline, acquire, later⟩ := step.mp slots
        exact ⟨columns _ List.mem_cons_self, ⟨deadline, acquire⟩,
          fun e mem => columns e (List.mem_cons_of_mem _ mem), later⟩
      · rintro ⟨column, ⟨deadline, acquire⟩, columns, later⟩
        exact ⟨List.forall_mem_cons.mpr ⟨column, columns⟩, step.mpr ⟨deadline, acquire, later⟩⟩

/-- The entries behind the first share their settings as well. -/
theorem OnePolicy.later (one : OnePolicy ((e :: entries).filterMap DispatchEntry.asks)) :
    OnePolicy (entries.filterMap DispatchEntry.asks) := by
  cases asks : e.asks with
  | none =>
      rw [List.filterMap_cons_none asks] at one
      exact one
  | some k =>
      rw [List.filterMap_cons_some asks] at one
      exact one.tail

end Entries

end DjQueue
