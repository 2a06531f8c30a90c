import DjQueue.Accounting.Release

/-!
# Dispatch and the ledger

A job in hand is dispatched: it gets a ready, scheduled or blocked row, or it is finished,
and a ready row comes with the slot it needs.  The batch form does the same for a list of
entries, group by group.
-/

namespace DjQueue

open Relational

/-- What a decision for a job may be: a slot is taken for the job's own key, under the tracked limit
where the key is tracked. -/
def Audit.Decides (a : Audit) (job : Job) : DispatchDecision → Prop
  | .outcome .scheduled => True
  | .outcome .ready => job.slotKey = none
  | .outcome .blocked | .outcome .discarded => False
  | .concurrency key settings => job.slotKey = some key ∧ a.Limit key settings.limit

/-- The decision of a known job is the one its identity allows. -/
theorem Audit.Knows.decides {a : Audit} {job : Job} (knows : a.Knows job) {env : Env} {now : Time}
    {task : Option Imported} {decision : DispatchDecision}
    (ok : dispatchDecision env job now task = .ok decision) : a.Decides job decision := by
  unfold dispatchDecision at ok
  split at ok
  · cases ok
    trivial
  · split at ok
    · rename_i none
      cases ok
      exact none
    · rename_i key slotKey
      cases resolved : concurrencySettingsForJob env job task with
      | error e =>
          rw [resolved] at ok
          cases ok
      | ok settings =>
          rw [resolved] at ok
          cases ok
          refine ⟨slotKey, fun L tracked => ?_⟩
          exact knows.limit _ tracked (knows.slotKey ▸ slotKey) _ _ _ resolved

namespace Accounts

variable {a : Audit} {hand hand' : List JobId} {owed owed' : Nat} {w w' : World} {u : Unit}

/-! ## One job -/

/-- The slot of a job that is to be ready is owed to it. -/
theorem resolveOutcome {job : Job} {decision : DispatchDecision} {outcome : DispatchOutcome}
    (good : Accounts a hand owed w.db) (decides : a.Decides job decision)
    (run : Runs (resolveOutcome a.env decision) w outcome w') :
    Accounts a hand (owed + if outcome = .ready then a.jobSlot job else 0) w'.db := by
  cases decision with
  | outcome o =>
      obtain ⟨same, rfl⟩ := Runs.of_pure run
      subst same
      cases outcome with
      | ready =>
          have none : a.jobSlot job = 0 := by
            simp [Audit.jobSlot, show job.slotKey = none from decides]
          rw [none]
          exact good
      | scheduled => exact good
      | blocked => exact decides.elim
      | discarded => exact decides.elim
  | concurrency key settings =>
      obtain ⟨slotKey, agrees⟩ := decides
      obtain ⟨acquired, w₁, asked, done⟩ := Runs.of_bind run
      obtain ⟨rfl, rfl⟩ := Runs.of_pure done
      have good₁ := good.semaphoreAcquire agrees asked
      cases acquired with
      | true => simpa [concurrencyDispatchOutcome, Audit.jobSlot, slotKey] using good₁
      | false =>
          have other : concurrencyDispatchOutcome settings.onConflict false ≠ .ready := by
            cases settings.onConflict <;> simp [concurrencyDispatchOutcome]
          rw [if_neg other]
          exact good₁

/-- An outcome takes over the job in hand, and the slot if it is ready. -/
theorem applyOutcome {job : Job} {decision : DispatchDecision} {outcome : DispatchOutcome}
    {now : Time} {checked : Bool}
    (good : Accounts a (job.id :: hand)
      (owed + if outcome = .ready then a.jobSlot job else 0) w.db)
    (knows : a.Knows job) (own : job.backendAlias = a.backendAlias)
    (decides : a.Decides job decision)
    (run : Runs (applyOutcome a.env job decision now checked outcome) w u w') :
    Accounts a hand owed w'.db := by
  cases outcome with
  | ready =>
      refine createReadyExecution ?_ knows.identity (fun q same => Option.some.inj same ▸ rfl) run
      rw [show job.ref.id = job.id from rfl, knows.held rfl]
      exact good
  | scheduled => exact createScheduledExecution good knows run
  | blocked =>
      cases decision with
      | outcome o => exact (Runs.of_throw run).elim
      | concurrency key settings =>
          obtain ⟨expiresAt, w₁, added, created⟩ := Runs.of_bind run
          obtain ⟨-, -, rfl⟩ := of_run_addSeconds added
          refine createBlockedExecution good knows.identity ?_ (fun q same => by cases same) created
          rw [← decides.1, knows.slotKey]
          rfl
  | discarded =>
      simp only [DjQueue.applyOutcome] at run
      split at run
      · exact finishJobIfNoExecutionState good (knows.owns own) run
      · exact saveDiscarded good (knows.owns own) run

/-- A dispatch takes over the job in hand. -/
theorem dispatchJob {job : Job} {checked : Bool} {task : Option Imported}
    {outcome : DispatchOutcome} (good : Accounts a (job.id :: hand) owed w.db)
    (knows : a.Knows job) (own : job.backendAlias = a.backendAlias)
    (run : Runs (dispatchJob a.env job checked task) w outcome w') :
    Accounts a hand owed w'.db := by
  obtain ⟨now, w₁, read, rest₁⟩ := Runs.of_bind run
  rw [← of_run_timezoneNow read] at good
  obtain ⟨decision, w₂, computed, rest₂⟩ := Runs.of_bind rest₁
  obtain ⟨ok, rfl⟩ := Runs.of_ofExcept computed
  have decides := knows.decides ok
  obtain ⟨o, w₃, resolved, rest₃⟩ := Runs.of_bind rest₂
  obtain ⟨v, w₄, applied, done⟩ := Runs.of_bind rest₃
  obtain ⟨rfl, rfl⟩ := Runs.of_pure done
  exact (good.resolveOutcome decides resolved).applyOutcome knows own decides applied

end Accounts

/-! ## Batches -/

/-- An entry of a batch: a job of the operation's backend with a decision for it. -/
structure Audit.Entry (a : Audit) (e : DispatchEntry) : Prop where
  knows : a.Knows e.job
  own : e.job.backendAlias = a.backendAlias
  decides : a.Decides e.job e.decision

/-- The entries that came to an outcome. -/
def withOutcome (o : DispatchOutcome) (settled : List (DispatchEntry × DispatchOutcome)) :
    List Job :=
  (settled.filter (fun s => s.2 = o)).map (fun s => s.1.job)

@[simp] theorem withOutcome_append (o : DispatchOutcome)
    (l l' : List (DispatchEntry × DispatchOutcome)) :
    withOutcome o (l ++ l') = withOutcome o l ++ withOutcome o l' := by
  simp [withOutcome]

@[simp] theorem withOutcome_singleton (o o' : DispatchOutcome) (e : DispatchEntry) :
    withOutcome o [(e, o')] = if o' = o then [e.job] else [] := by
  by_cases same : o' = o <;> simp [withOutcome, same]

/-- Every entry came to one of the four outcomes. -/
theorem perm_withOutcome (settled : List (DispatchEntry × DispatchOutcome)) :
    (settled.map (fun s => s.1.job)).Perm (withOutcome .ready settled ++
      withOutcome .scheduled settled ++ withOutcome .blocked settled ++
      withOutcome .discarded settled) := by
  refine List.perm_iff_count.mpr fun j => ?_
  simp only [List.count_append]
  induction settled with
  | nil => rfl
  | cons s settled ih =>
      obtain ⟨e, o⟩ := s
      rw [List.map_cons, List.count_cons, ih]
      cases o <;> simp only [withOutcome, List.filter_cons, decide_true, if_true, reduceCtorEq,
        decide_false, Bool.false_eq_true, if_false, List.map_cons, List.count_cons] <;> omega

/-- The rows built for a list of settled entries. -/
structure Audit.Built (a : Audit) (rows : DispatchRows)
    (settled : List (DispatchEntry × DispatchOutcome)) : Prop where
  ready : rows.ready.map ReadyExecution.jobId = (withOutcome .ready settled).map Job.id
  scheduled : rows.scheduled.map ScheduledExecution.jobId =
    (withOutcome .scheduled settled).map Job.id
  blocked : rows.blocked.map BlockedExecution.jobId = (withOutcome .blocked settled).map Job.id
  discarded : rows.discarded.map Job.id = (withOutcome .discarded settled).map Job.id
  readyOwn : ∀ r ∈ rows.ready, a.OwnRow (m := .ready) r
  scheduledOwn : ∀ r ∈ rows.scheduled, a.OwnRow (m := .scheduled) r
  blockedOwn : ∀ r ∈ rows.blocked, a.OwnRow (m := .blocked) r
  finished : ∀ j ∈ rows.discarded, j.finishedAt.isSome = true

theorem Audit.Built.empty (a : Audit) : a.Built .empty [] :=
  ⟨rfl, rfl, rfl, rfl, fun _ mem => absurd mem List.not_mem_nil,
    fun _ mem => absurd mem List.not_mem_nil, fun _ mem => absurd mem List.not_mem_nil,
    fun _ mem => absurd mem List.not_mem_nil⟩

/-- A property of the elements of a list, when one is added at its end. -/
theorem forall_mem_append_singleton {α : Type} {P : α → Prop} {l : List α} {x : α}
    (all : ∀ y ∈ l, P y) (last : P x) : ∀ y ∈ l ++ [x], P y := by
  intro y mem
  rcases List.mem_append.mp mem with mem | mem
  · exact all y mem
  · rw [List.mem_singleton.mp mem]
    exact last

/-- One more entry, whatever its outcome. -/
theorem Audit.Built.append {a : Audit} {rows rows' : DispatchRows}
    {settled : List (DispatchEntry × DispatchOutcome)} {e : DispatchEntry} {o : DispatchOutcome}
    {now : Time} (built : a.Built rows settled) (entry : a.Entry e)
    (ok : appendDispatchRow a.env now rows e o = .ok rows') : a.Built rows' (settled ++ [(e, o)]) := by
  obtain ⟨ready, scheduled, blocked, discarded, readyOwn, scheduledOwn, blockedOwn, finished⟩ := built
  cases o with
  | ready =>
      simp only [appendDispatchRow, bind, Except.bind] at ok
      split at ok
      · cases ok
      · rename_i row made
        cases ok
        obtain ⟨id, own⟩ := ownRow_readyExecutionRow (a := a) entry.knows.identity
          (fun q same => by cases same) made
        have id : row.jobId = e.job.id := id
        exact ⟨by simp [ready, id], by simp [scheduled], by simp [blocked], by simp [discarded],
          forall_mem_append_singleton readyOwn own, scheduledOwn, blockedOwn, finished⟩
  | scheduled =>
      simp only [appendDispatchRow, bind, Except.bind] at ok
      split at ok
      · cases ok
      · rename_i row made
        cases ok
        obtain ⟨id, own⟩ := ownRow_scheduledExecutionRow entry.knows made
        exact ⟨by simp [ready], by simp [scheduled, id], by simp [blocked], by simp [discarded],
          readyOwn, forall_mem_append_singleton scheduledOwn own, blockedOwn, finished⟩
  | blocked =>
      simp only [appendDispatchRow, bind, Except.bind] at ok
      split at ok
      · cases ok
      · rename_i row made
        cases ok
        have both : row.jobId = e.job.id ∧ a.OwnRow (m := .blocked) row := by
          have decides := entry.decides
          cases decision : e.decision with
          | outcome o =>
              rw [decision] at made
              cases made
          | concurrency key settings =>
              rw [decision] at made decides
              obtain ⟨expiresAt, -, made⟩ := bind_eq_ok made
              cases made
              refine ⟨rfl, e.job.identity, entry.knows.identity, entry.own, ⟨?_, ?_, ?_⟩⟩
              · rintro b ⟨⟩
                exact entry.own.symm
              · rintro q ⟨⟩
                rfl
              · rintro k ⟨⟩
                rw [← decides.1, entry.knows.slotKey]
                rfl
        exact ⟨by simp [ready], by simp [scheduled], by simp [blocked, both.1],
          by simp [discarded], readyOwn, scheduledOwn,
          forall_mem_append_singleton blockedOwn both.2, finished⟩
  | discarded =>
      cases ok
      exact ⟨by simp [ready], by simp [scheduled], by simp [blocked], by simp [discarded],
        readyOwn, scheduledOwn, blockedOwn, forall_mem_append_singleton finished rfl⟩

/-- The rows of a batch, by induction on its entries. -/
theorem Audit.Built.appendAll {a : Audit} {now : Time} :
    ∀ {settled done : List (DispatchEntry × DispatchOutcome)} {rows rows' : DispatchRows},
      a.Built rows done → (∀ s ∈ settled, a.Entry s.1) →
      appendDispatchRows a.env now rows settled = .ok rows' → a.Built rows' (done ++ settled)
  | [], done, rows, rows', built, _, ok => by
      cases ok
      rw [List.append_nil]
      exact built
  | (e, o) :: settled, done, rows, rows', built, entries, ok => by
      simp only [appendDispatchRows, bind, Except.bind] at ok
      split at ok
      · cases ok
      · rename_i mid made
        have next := built.append (entries _ List.mem_cons_self) made
        have all := next.appendAll (fun s mem => entries s (List.mem_cons_of_mem _ mem)) ok
        rwa [List.append_assoc] at all

/-! ## Slots for groups -/

/-- Every entry of a group gets an outcome. -/
theorem groupOutcomes_fst (settings : ConcurrencySettings) (acquired : Int)
    (group : List DispatchEntry) : (groupOutcomes settings acquired group).map Prod.fst = group := by
  simp [groupOutcomes, Function.comp_def]

theorem withOutcome_map (o o' : DispatchOutcome) (entries : List DispatchEntry) :
    withOutcome o (entries.map (fun e => (e, o'))) =
      if o' = o then entries.map DispatchEntry.job else [] := by
  by_cases same : o' = o <;>
    simp [withOutcome, List.filter_map, Function.comp_def, same]

/-- As many entries of a group are ready as slots were acquired. -/
theorem withOutcome_groupOutcomes (settings : ConcurrencySettings) (acquired : Int)
    (group : List DispatchEntry) :
    withOutcome .ready (groupOutcomes settings acquired group) =
      (group.take acquired.toNat).map DispatchEntry.job := by
  have refused : concurrencyDispatchOutcome settings.onConflict false ≠ .ready := by
    cases settings.onConflict <;> simp [concurrencyDispatchOutcome]
  unfold groupOutcomes
  rw [withOutcome_append, withOutcome_map, withOutcome_map, if_neg refused, List.append_nil]
  exact if_pos rfl

/-- A group of entries that need a slot of one key under one limit. -/
def Audit.Group (a : Audit) (g : (String × ConcurrencySettings) × List DispatchEntry) : Prop :=
  ∀ e ∈ g.2, a.Entry e ∧ e.job.slotKey = some g.1.1 ∧ a.Limit g.1.1 g.1.2.limit

namespace Accounts

variable {a : Audit} {hand hand' : List JobId} {owed owed' : Nat} {w w' : World} {u : Unit}

/-- The slots of the entries that are to be ready are owed. -/
theorem dispatchGroups : ∀ {groups : List ((String × ConcurrencySettings) × List DispatchEntry)}
    {owed : Nat} {w : World} {settled : List (DispatchEntry × DispatchOutcome)},
    Accounts a hand owed w.db → (∀ g ∈ groups, a.Group g) →
    Runs (dispatchGroups a.env groups) w settled w' →
    settled.map Prod.fst = groups.flatMap Prod.snd ∧
      Accounts a hand (owed + ((withOutcome .ready settled).map a.jobSlot).sum) w'.db
  | [], owed, w, settled, good, _, run => by
      obtain ⟨rfl, rfl⟩ := Runs.of_pure run
      exact ⟨rfl, good⟩
  | ((key, settings), group) :: groups, owed, w, settled, good, members, run => by
      have here := members _ List.mem_cons_self
      obtain ⟨acquired, w₁, asked, rest₁⟩ := Runs.of_bind run
      obtain ⟨others, w₂, tail, done⟩ := Runs.of_bind rest₁
      obtain ⟨rfl, rfl⟩ := Runs.of_pure done
      obtain ⟨fits, good₁⟩ := good.semaphoreAcquireMany (fun some => by
        obtain ⟨e, mem⟩ := List.exists_mem_of_length_pos some
        exact (here e mem).2.2) asked
      obtain ⟨fsts, good₂⟩ := good₁.dispatchGroups
        (fun g mem => members g (List.mem_cons_of_mem _ mem)) tail
      -- the entries at the front of the group get what was acquired
      have slots : ((withOutcome .ready (groupOutcomes settings acquired group)).map
          a.jobSlot).sum = acquired.toNat * a.slot key := by
        rw [withOutcome_groupOutcomes]
        have front : ∀ j ∈ (group.take acquired.toNat).map DispatchEntry.job,
            a.Knows j ∧ j.concurrencyKey = some key := by
          intro j mem
          obtain ⟨e, inFront, rfl⟩ := List.mem_map.mp mem
          obtain ⟨entry, slotKey, -⟩ := here e (List.mem_of_mem_take inFront)
          exact ⟨entry.knows, by rw [← entry.knows.slotKey, slotKey]⟩
        rw [sum_jobSlot (fun j mem => (front j mem).1) (fun j mem => (front j mem).2),
          List.length_map, List.length_take, Nat.min_eq_left fits]
      refine ⟨by rw [List.map_append, groupOutcomes_fst, fsts, List.flatMap_cons], ?_⟩
      rw [withOutcome_append, List.map_append, List.sum_append, slots, ← Nat.add_assoc]
      exact good₂

/-! ## The batch -/

/-- Entries with an outcome of their own and entries that need a slot make up the batch. -/
theorem perm_slotEntries (entries : List DispatchEntry) :
    ((directOutcomes entries).map Prod.fst ++ (slotEntries entries).map Prod.snd).Perm entries := by
  induction entries with
  | nil => exact List.Perm.refl _
  | cons e entries ih =>
      unfold directOutcomes slotEntries at ih ⊢
      cases decision : e.decision with
      | outcome o =>
          rw [List.filterMap_cons_some (b := (e, o)) (by rw [decision]),
            List.filterMap_cons_none (by rw [decision])]
          exact ih.cons e
      | concurrency key settings =>
          rw [List.filterMap_cons_none (by rw [decision]),
            List.filterMap_cons_some (b := ((key, settings), e)) (by rw [decision])]
          exact List.perm_middle.trans (ih.cons e)

/-- A direct outcome is the decision of its entry. -/
theorem direct_of_mem {entries : List DispatchEntry} {s : DispatchEntry × DispatchOutcome}
    (mem : s ∈ directOutcomes entries) : s.1 ∈ entries ∧ s.1.decision = .outcome s.2 := by
  obtain ⟨e, inEntries, made⟩ := List.mem_filterMap.mp mem
  cases decision : e.decision with
  | outcome o =>
      rw [decision] at made
      cases made
      exact ⟨inEntries, decision⟩
  | concurrency key settings =>
      rw [decision] at made
      cases made

/-- The entries of a group share a key and settings. -/
theorem group_of_mem {entries : List DispatchEntry} (all : ∀ e ∈ entries, a.Entry e)
    {g : (String × ConcurrencySettings) × List DispatchEntry} (mem : g ∈ slotGroups entries) :
    a.Group g := by
  intro e inGroup
  obtain ⟨g, grouped, rfl⟩ := List.mem_map.mp mem
  obtain ⟨pair, inPairs, rfl⟩ := List.mem_map.mp inGroup
  obtain ⟨inSlots, same⟩ := mem_of_mem_groupBy grouped inPairs
  obtain ⟨e, inEntries, made⟩ := List.mem_filterMap.mp inSlots
  have entry := all e inEntries
  have decides := entry.decides
  cases decision : e.decision with
  | outcome o =>
      rw [decision] at made
      cases made
  | concurrency key settings =>
      rw [decision] at made decides
      cases made
      rw [← same]
      exact ⟨entry, decides⟩

/-- The jobs of entries decided without a slot hold none. -/
theorem sum_directOutcomes {entries : List DispatchEntry} (all : ∀ e ∈ entries, a.Entry e) :
    ((withOutcome .ready (directOutcomes entries)).map a.jobSlot).sum = 0 := by
  refine List.sum_eq_zero_iff_forall_eq_nat.mpr fun n mem => ?_
  obtain ⟨j, inReady, rfl⟩ := List.mem_map.mp mem
  obtain ⟨s, filtered, rfl⟩ := List.mem_map.mp inReady
  obtain ⟨direct, ready⟩ := List.mem_filter.mp filtered
  obtain ⟨inEntries, decision⟩ := direct_of_mem direct
  have decides := (all s.1 inEntries).decides
  rw [decision, of_decide_eq_true ready] at decides
  simp [Audit.jobSlot, show s.1.job.slotKey = none from decides]

/-- `build_dispatch_rows`: rows for all entries, with a slot owed for each ready one. -/
theorem buildDispatchRows {entries : List DispatchEntry} {now : Time}
    {result : DispatchRows × List (DispatchEntry × DispatchOutcome)}
    (good : Accounts a hand owed w.db) (all : ∀ e ∈ entries, a.Entry e)
    (run : Runs (buildDispatchRows a.env entries now) w result w') :
    (result.2.map Prod.fst).Perm entries ∧ a.Built result.1 result.2 ∧
      Accounts a hand (owed + a.held .ready (result.1.ready.map ReadyExecution.jobId)) w'.db := by
  obtain ⟨grouped, w₁, slots, rest₁⟩ := Runs.of_bind run
  obtain ⟨rows, w₂, computed, done⟩ := Runs.of_bind rest₁
  obtain ⟨ok, rfl⟩ := Runs.of_ofExcept computed
  obtain ⟨rfl, rfl⟩ := Runs.of_pure done
  obtain ⟨fsts, good₁⟩ := good.dispatchGroups (fun g mem => group_of_mem all mem) slots
  have perm : ((directOutcomes entries ++ grouped).map Prod.fst).Perm entries := by
    rw [List.map_append, fsts]
    refine (List.Perm.append_left _ ?_).trans (perm_slotEntries entries)
    have groups := (groupBy_flatMap_perm Prod.fst (slotEntries entries)).map Prod.snd
    rw [List.map_flatMap] at groups
    unfold slotGroups
    rw [List.flatMap_map]
    exact groups
  have settled : ∀ s ∈ directOutcomes entries ++ grouped, a.Entry s.1 := fun s mem =>
    all s.1 (perm.subset (List.mem_map_of_mem mem))
  have built := (Audit.Built.empty a).appendAll settled ok
  refine ⟨perm, built, ?_⟩
  have knows : ∀ j ∈ withOutcome .ready (directOutcomes entries ++ grouped), a.Knows j := by
    intro j mem
    obtain ⟨s, filtered, rfl⟩ := List.mem_map.mp mem
    exact (settled s (List.mem_of_mem_filter filtered)).knows
  have ready := built.ready
  rw [List.nil_append] at ready
  rw [ready, held_map rfl knows, withOutcome_append, List.map_append, List.sum_append,
    sum_directOutcomes all, Nat.zero_add]
  exact good₁

end Accounts

end DjQueue
