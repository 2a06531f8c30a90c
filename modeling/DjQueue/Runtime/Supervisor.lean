import DjQueue.Settings
import Mathlib.Algebra.Order.Field.Rat
import Mathlib.Data.List.AList
import Mathlib.Data.List.Chain
import Mathlib.Tactic.Linarith
import Mathlib.Tactic.NormNum
import Mathlib.Tactic.Positivity

/-!
# The children of the fork supervisor

`runtime/supervisor.py`.  A child runs a runner spec; when it exits, `check_children` launches
another one for the same spec, at once or after a delay that doubles with each failure.  Between
two calls every spec is either a child's or pending, until the delay, which is a power of two
before it is clamped, no longer fits a float.

Readings of `time.monotonic()` are exact here, as are the delays: `0.1` is the rational its float
stands for, and doubling it is exact.
-/

namespace DjQueue

open Relational

/-- The id of an operating system process. -/
abbrev Pid := Nat

/-- `SUPERVISOR_RESTART_BACKOFF_BASE_DELAY`: the float nearest to `0.1`. -/
def restartBackoffBaseDelay : ℚ := 3602879701896397 / 2 ^ 55

/-- `SUPERVISOR_RESTART_BACKOFF_MAX_DELAY` -/
def restartBackoffMaxDelay : ℚ := 30

/-- `SUPERVISOR_RESTART_BACKOFF_RESET_AFTER` -/
def restartBackoffResetAfter : ℚ := 60

/-! ## Runner specs -/

/-- What `runner_definitions` reads of the configuration. -/
structure Topology where
  /-- `processes` of each worker. -/
  workers : List Int
  dispatchers : Nat
  scheduler : Bool

/-- What a child is started from. -/
structure RunnerSpec where
  kind : String
  /-- `kwargs["name"]` -/
  name : String
deriving DecidableEq, Repr

/-- The workers of one group. -/
def workerSpecs (processes : Int) (index : Nat) : List RunnerSpec :=
  (List.range processes.toNat).map (fun processIndex => {
    kind := "worker"
    name := if processes = 1 then s!"worker-{index}" else s!"worker-{index}-{processIndex + 1}" })

/-- `_build_runner_specs` -/
def buildRunnerSpecs (topology : Topology) : List RunnerSpec :=
  (topology.workers.zipIdx 1).flatMap (fun worker => workerSpecs worker.1 worker.2) ++
    (List.range topology.dispatchers).map (fun index => {
      kind := "dispatcher", name := s!"dispatcher-{index + 1}" }) ++
    if topology.scheduler then [{ kind := "scheduler", name := "scheduler-1" }] else []

/-! ## The supervisor -/

/-- A child waiting to be started again. -/
structure PendingReplacement where
  notBefore : ℚ
  oldPid : Pid
  spec : RunnerSpec
  status : Int
deriving DecidableEq

/-- What `_restart_backoff_delay` returned, and whether it did so after a long run. -/
structure Backoff where
  name : String
  reset : Bool
  delay : ℚ
deriving DecidableEq

/-- The supervisor's books: children by pid, their starts, the replacements that wait, the failures
by name. -/
structure ForkSupervisor where
  children : AList (fun _ : Pid => RunnerSpec)
  childStartedAt : AList (fun _ : Pid => ℚ)
  pendingChildReplacements : List PendingReplacement
  restartFailures : AList (fun _ : String => Nat)
  /-- Every delay so far, oldest first; nothing reads it. -/
  backoffs : List Backoff

/-- What one `check_children` meets: its readings of the clock, what `waitpid` returns, if it does
not raise `ChildProcessError`, and the pid the launcher returns. -/
structure Poll where
  dueAt : ℚ
  waitpid : Option (Pid × Int)
  exitedAt : ℚ
  restartedAt : ℚ
  launchedPid : Pid

namespace ForkSupervisor

/-- Nothing started. -/
def initial : ForkSupervisor := ⟨∅, ∅, [], ∅, []⟩

/-- The failures counted for a name. -/
def failures (s : ForkSupervisor) (name : String) : Nat := (s.restartFailures.lookup name).getD 0

/-- `_launch_child`, with the pid the launcher returns. -/
def launchChild (s : ForkSupervisor) (spec : RunnerSpec) (pid : Pid) (now : ℚ) : ForkSupervisor :=
  { s with
    children := s.children.insert pid spec
    childStartedAt := s.childStartedAt.insert pid now }

/-- The children of the specs, one after the other. -/
def launchChildren (s : ForkSupervisor) : List RunnerSpec → (Nat → Pid × ℚ) → ForkSupervisor
  | [], _ => s
  | spec :: rest, launched =>
      (s.launchChild spec (launched 0).1 (launched 0).2).launchChildren rest
        (fun i => launched (i + 1))

/-- `_start_children` -/
def startChildren (s : ForkSupervisor) (topology : Topology) (launched : Nat → Pid × ℚ) :
    ForkSupervisor :=
  if s.children.keys ≠ [] then s else s.launchChildren (buildRunnerSpecs topology) launched

/-! ### Restarts -/

/-- `float(2 ** exponent)`, as CPython converts the integer operand of a product with a float. -/
def floatOfPowerOfTwo (exponent : Nat) : Except PyError ℚ :=
  if exponent < 1024 then .ok (2 ^ exponent)
  else .error (.overflowError "int too large to convert to float")

/-- The delay before a replacement, from the failures counted. -/
def backoffDelay (failures : Nat) : Except PyError ℚ :=
  if failures ≤ 1 then .ok 0
  else (floatOfPowerOfTwo (failures - 2)).map (fun factor =>
    min (restartBackoffBaseDelay * factor) restartBackoffMaxDelay)

/-- A run that resets the failures. -/
def RanLong (startedAt : Option ℚ) (now : ℚ) : Prop :=
  ∃ started ∈ startedAt, restartBackoffResetAfter ≤ now - started

instance (startedAt : Option ℚ) (now : ℚ) : Decidable (RanLong startedAt now) :=
  decidable_of_iff (startedAt.any (fun started => restartBackoffResetAfter ≤ now - started)) <| by
    cases startedAt <;> simp [RanLong]

/-- A delay recorded in the history. -/
def record (s : ForkSupervisor) (b : Backoff) : ForkSupervisor :=
  { s with backoffs := s.backoffs ++ [b] }

/-- `_restart_backoff_delay`: the failures are counted before the delay is computed. -/
def restartBackoffDelay (s : ForkSupervisor) (name : String) (startedAt : Option ℚ) (now : ℚ) :
    Except PyError ℚ × ForkSupervisor :=
  if RanLong startedAt now then
    (.ok 0, { s with restartFailures := s.restartFailures.erase name }.record ⟨name, true, 0⟩)
  else
    let failures := s.failures name + 1
    let s := { s with restartFailures := s.restartFailures.insert name failures }
    match backoffDelay failures with
    | .error e => (.error e, s)
    | .ok delay => (.ok delay, s.record ⟨name, false, delay⟩)

/-- `_replace_child`: the launcher's pid, or nothing yet. -/
def replaceChild (s : ForkSupervisor) (spec : RunnerSpec) (oldPid : Pid) (status : Int)
    (startedAt : Option ℚ) (poll : Poll) : Except PyError (Option Pid) × ForkSupervisor :=
  match s.restartBackoffDelay spec.name startedAt poll.exitedAt with
  | (.error e, s) => (.error e, s)
  | (.ok delay, s) =>
      if delay ≠ 0 then
        (.ok none, { s with pendingChildReplacements := s.pendingChildReplacements ++
          [⟨poll.restartedAt + delay, oldPid, spec, status⟩] })
      else (.ok (some poll.launchedPid), s.launchChild spec poll.launchedPid poll.restartedAt)

/-- The first pending replacement that is due, and the others. -/
def popDue (now : ℚ) : List PendingReplacement →
    Option (PendingReplacement × List PendingReplacement)
  | [] => none
  | pending :: rest =>
      if pending.notBefore > now then (popDue now rest).map (fun due => (due.1, pending :: due.2))
      else some (pending, rest)

/-- `check_children`, where the recovery of the child's jobs does not raise. -/
def checkChildren (s : ForkSupervisor) (poll : Poll) :
    Except PyError (Option Pid) × ForkSupervisor :=
  match popDue poll.dueAt s.pendingChildReplacements with
  | some (due, rest) =>
      (.ok (some poll.launchedPid), { s with pendingChildReplacements := rest }.launchChild due.spec
        poll.launchedPid poll.restartedAt)
  | none =>
      if s.children.keys = [] then (.ok none, s)
      else
        match poll.waitpid with
        | none => (.ok none, s)
        | some (pid, status) =>
            if pid = 0 then (.ok none, s)
            else
              let reaped := { s with
                children := s.children.erase pid, childStartedAt := s.childStartedAt.erase pid }
              match s.children.lookup pid with
              | none => (.ok none, reaped)
              | some spec =>
                  reaped.replaceChild spec pid status (s.childStartedAt.lookup pid) poll

/-! ## Bookkeeping -/

/-- The runner specs the supervisor still answers for. -/
def heldSpecs (s : ForkSupervisor) : List RunnerSpec :=
  s.children.entries.map Sigma.snd ++ s.pendingChildReplacements.map PendingReplacement.spec

/-- The delays recorded for a name. -/
def backoffsOf (s : ForkSupervisor) (name : String) : List Backoff :=
  s.backoffs.filter (fun b => b.name = name)

/-- Each spec is a child's or pending, and only one of them; a start is on record for each child and
for no other pid. -/
structure Holding (specs : List RunnerSpec) (s : ForkSupervisor) : Prop where
  held : s.heldSpecs.Perm specs
  started : ∀ pid, pid ∈ s.children ↔ pid ∈ s.childStartedAt

/-- The books: the delays, besides, stay within bounds, and those of a name rise until a long run. -/
structure Bookkept (specs : List RunnerSpec) (s : ForkSupervisor) : Prop extends
    Holding specs s where
  bounded : ∀ b ∈ s.backoffs, 0 ≤ b.delay ∧ b.delay ≤ restartBackoffMaxDelay
  rising : ∀ name, (s.backoffsOf name).IsChain (fun a b => b.reset = true ∨ a.delay ≤ b.delay)

/-- The delay after so many failures, were there no limit to a float. -/
def clampedDelay (failures : Nat) : ℚ :=
  if failures ≤ 1 then 0
  else min (restartBackoffBaseDelay * 2 ^ (failures - 2)) restartBackoffMaxDelay

/-- The last delay of a name is the one its failures on record ask for. -/
def Counted (s : ForkSupervisor) : Prop :=
  ∀ name, ∀ b ∈ (s.backoffsOf name).getLast?, b.delay = clampedDelay (s.failures name)

/-- What `check_children` needs: a child that ran shortly is not one failure away from a delay that
is computed from `2 ** 1024`. -/
def Survivable (s : ForkSupervisor) (poll : Poll) : Prop :=
  ∀ pid status spec, popDue poll.dueAt s.pendingChildReplacements = none →
    poll.waitpid = some (pid, status) → pid ≠ 0 → s.children.lookup pid = some spec →
    RanLong (s.childStartedAt.lookup pid) poll.exitedAt ∨ s.failures spec.name < 1025

/-! ### Delays -/

/-- The delay while the power of two is a float. -/
theorem backoffDelay_of_lt {failures : Nat} (few : failures < 1026) :
    backoffDelay failures = .ok (clampedDelay failures) := by
  unfold backoffDelay clampedDelay floatOfPowerOfTwo
  split
  · rfl
  · rw [if_pos (by omega)]
    rfl

theorem backoffDelay_of_le {failures : Nat} (many : 1026 ≤ failures) :
    backoffDelay failures = .error (.overflowError "int too large to convert to float") := by
  rw [backoffDelay, floatOfPowerOfTwo, if_neg (by omega), if_neg (by omega)]
  rfl

theorem clampedDelay_nonneg (failures : Nat) : 0 ≤ clampedDelay failures := by
  unfold clampedDelay
  split
  · exact le_refl 0
  · apply le_min
    · apply mul_nonneg
      · norm_num [restartBackoffBaseDelay]
      · positivity
    · norm_num [restartBackoffMaxDelay]

theorem clampedDelay_le (failures : Nat) : clampedDelay failures ≤ restartBackoffMaxDelay := by
  unfold clampedDelay
  split
  · norm_num [restartBackoffMaxDelay]
  · exact min_le_right _ _

theorem clampedDelay_le_succ (failures : Nat) :
    clampedDelay failures ≤ clampedDelay (failures + 1) := by
  by_cases first : failures ≤ 1
  · rw [clampedDelay, if_pos first]
    exact clampedDelay_nonneg _
  · rw [clampedDelay, if_neg first, clampedDelay, if_neg (by omega)]
    apply min_le_min_right
    apply mul_le_mul_of_nonneg_left
    · exact pow_le_pow_right₀ (by norm_num) (by omega)
    · norm_num [restartBackoffBaseDelay]

/-! ### Steps -/

section Steps

variable {specs : List RunnerSpec} {s s' : ForkSupervisor} {poll : Poll}

theorem entries_perm_of_lookup {β : Type} {a : Pid} {b : β} {dict : AList (fun _ : Pid => β)}
    (found : dict.lookup a = some b) :
    dict.entries.Perm (⟨a, b⟩ :: (dict.erase a).entries) := by
  have there : a ∈ dict := AList.lookup_isSome.mp (by simp [found])
  rcases List.exists_of_kerase there with ⟨b', before, after, fresh, split, erased⟩
  have same : b' = b := by
    have head : dict.lookup a = some b' := by
      rw [AList.lookup, split, List.dlookup_append, List.dlookup_eq_none.mpr fresh]
      simp
    exact Option.some.inj (head.symm.trans found)
  have rest : (dict.erase a).entries = before ++ after := erased
  rw [rest, split, same]
  exact List.perm_middle

/-- The failures after one is written. -/
theorem failures_insert (s : ForkSupervisor) (name : String) (n : Nat) (name' : String) :
    { s with restartFailures := s.restartFailures.insert name n }.failures name' =
      if name' = name then n else s.failures name' := by
  unfold failures
  by_cases same : name' = name
  · rw [if_pos same, same, AList.lookup_insert]
    rfl
  · rw [if_neg same, AList.lookup_insert_ne same]

/-- The failures after a name is forgotten. -/
theorem failures_erase (s : ForkSupervisor) (name name' : String) :
    { s with restartFailures := s.restartFailures.erase name }.failures name' =
      if name' = name then 0 else s.failures name' := by
  unfold failures
  by_cases same : name' = name
  · rw [if_pos same, same, AList.lookup_erase]
    rfl
  · rw [if_neg same, AList.lookup_erase_ne same]

/-- The replacement taken out, and the others. -/
theorem popDue_perm {now : ℚ} : ∀ {waiting rest : List PendingReplacement}
    {due : PendingReplacement}, popDue now waiting = some (due, rest) →
    waiting.Perm (due :: rest)
  | [], _, _, popped => by cases popped
  | pending :: waiting, rest, due, popped => by
      rw [popDue] at popped
      split at popped
      · rcases Option.map_eq_some_iff.mp popped with ⟨⟨due', rest'⟩, later, same⟩
        cases same
        exact ((popDue_perm later).cons pending).trans (List.Perm.swap _ _ _)
      · cases popped
        exact List.Perm.refl _

/-- A child is launched for a spec that nobody held. -/
theorem Holding.launchChild {spec : RunnerSpec} (holding : Holding specs s) {pid : Pid}
    (fresh : pid ∉ s.children) (now : ℚ) : Holding (spec :: specs) (s.launchChild spec pid now) := by
  constructor
  · rw [heldSpecs, ForkSupervisor.launchChild, AList.entries_insert_of_notMem fresh]
    exact holding.held.cons spec
  · intro pid'
    rw [ForkSupervisor.launchChild, AList.mem_insert, AList.mem_insert, holding.started]

theorem backoffsOf_record (s : ForkSupervisor) (b : Backoff) (name : String) :
    (s.record b).backoffsOf name = s.backoffsOf name ++ if b.name = name then [b] else [] := by
  rw [backoffsOf, record, List.filter_append]
  congr 1
  by_cases same : b.name = name <;> simp [same]

/-- The delays, with the failures that the last one of each name is the delay of. -/
structure Backoffs (s : ForkSupervisor) : Prop where
  bounded : ∀ b ∈ s.backoffs, 0 ≤ b.delay ∧ b.delay ≤ restartBackoffMaxDelay
  rising : ∀ name, (s.backoffsOf name).IsChain (fun a b => b.reset = true ∨ a.delay ≤ b.delay)
  counted : s.Counted

/-- The delays answer to the failures while neither changes. -/
theorem Backoffs.of_frame (backed : Backoffs s) (failures : s'.restartFailures = s.restartFailures)
    (backoffs : s'.backoffs = s.backoffs) : Backoffs s' := by
  constructor
  · rw [backoffs]
    exact backed.bounded
  · intro name
    rw [backoffsOf, backoffs]
    exact backed.rising name
  · intro name b last
    rw [backoffsOf, backoffs] at last
    rw [ForkSupervisor.failures, failures]
    exact backed.counted name b last

/-- One more delay: after a long run, or after one more failure. -/
theorem Backoffs.record (backed : Backoffs s) {b : Backoff}
    (own : b.delay = clampedDelay (s'.failures b.name))
    (rises : b.reset = true ∨ s'.failures b.name = s.failures b.name + 1)
    (others : ∀ name, name ≠ b.name → s'.failures name = s.failures name)
    (backoffs : s'.backoffs = s.backoffs) : Backoffs (s'.record b) := by
  have before (name : String) : s'.backoffsOf name = s.backoffsOf name := by
    rw [backoffsOf, backoffs, backoffsOf]
  constructor
  · intro b' mem
    rw [ForkSupervisor.record, backoffs] at mem
    rcases List.mem_append.mp mem with old | new
    · exact backed.bounded b' old
    · rw [List.mem_singleton.mp new, own]
      exact ⟨clampedDelay_nonneg _, clampedDelay_le _⟩
  · intro name
    rw [backoffsOf_record, before]
    by_cases same : b.name = name
    · rw [if_pos same]
      apply (backed.rising name).append (List.isChain_singleton b)
      intro a last b' only
      cases Option.some.inj only
      rcases rises with reset | next
      · exact .inl reset
      · right
        rw [own, next, backed.counted name a last, ← same]
        exact clampedDelay_le_succ _
    · rw [if_neg same, List.append_nil]
      exact backed.rising name
  · intro name b' last
    rw [backoffsOf_record, before] at last
    by_cases same : b.name = name
    · rw [if_pos same, List.getLast?_concat] at last
      cases Option.some.inj last
      rw [← same]
      exact own
    · rw [if_neg same, List.append_nil] at last
      exact (backed.counted name b' last).trans
        (congrArg clampedDelay (others name (Ne.symm same)).symm)

/-- The delay is computed while the count is in range. -/
theorem restartBackoffDelay_of_survivable (backed : Backoffs s) {name : String}
    {startedAt : Option ℚ} {now : ℚ} (fine : RanLong startedAt now ∨ s.failures name < 1025) :
    ∃ delay s', s.restartBackoffDelay name startedAt now = (.ok delay, s') ∧ Backoffs s' ∧
      s'.children = s.children ∧ s'.childStartedAt = s.childStartedAt ∧
      s'.pendingChildReplacements = s.pendingChildReplacements := by
  unfold restartBackoffDelay
  by_cases long : RanLong startedAt now
  · rw [if_pos long]
    refine ⟨_, _, rfl, ?_, rfl, rfl, rfl⟩
    apply backed.record
    · rw [failures_erase, if_pos rfl]
      rfl
    · exact .inl rfl
    · intro name' other
      rw [failures_erase, if_neg other]
    · rfl
  · have few : s.failures name + 1 < 1026 := by
      have := fine.resolve_left long
      omega
    rw [if_neg long]
    dsimp only
    rw [backoffDelay_of_lt few]
    refine ⟨_, _, rfl, ?_, rfl, rfl, rfl⟩
    apply backed.record
    · rw [failures_insert, if_pos rfl]
    · right
      rw [failures_insert, if_pos rfl]
    · intro name' other
      rw [failures_insert, if_neg other]
    · rfl

theorem restartBackoffDelay_of_not_survivable {name : String} {startedAt : Option ℚ} {now : ℚ}
    (short : ¬ RanLong startedAt now) (many : 1025 ≤ s.failures name) :
    (s.restartBackoffDelay name startedAt now).1 =
      .error (.overflowError "int too large to convert to float") := by
  have beyond : 1026 ≤ s.failures name + 1 := Nat.succ_le_succ many
  rw [restartBackoffDelay, if_neg short]
  dsimp only
  rw [backoffDelay_of_le beyond]

/-- A replacement that is due is launched. -/
theorem Holding.launchDue {due : PendingReplacement} {rest : List PendingReplacement}
    (holding : Holding specs s)
    (popped : popDue poll.dueAt s.pendingChildReplacements = some (due, rest))
    (fresh : poll.launchedPid ∉ s.children) :
    Holding specs ({ s with pendingChildReplacements := rest }.launchChild due.spec
      poll.launchedPid poll.restartedAt) := by
  have others : Holding ({ s with pendingChildReplacements := rest } : ForkSupervisor).heldSpecs
      { s with pendingChildReplacements := rest } := ⟨List.Perm.refl _, holding.started⟩
  have launched : Holding (due.spec :: _) _ := others.launchChild fresh poll.restartedAt
  refine ⟨launched.held.trans (List.Perm.trans ?_ holding.held), launched.started⟩
  rw [heldSpecs, heldSpecs]
  apply List.perm_middle.symm.trans
  apply List.Perm.append_left
  exact ((popDue_perm popped).map PendingReplacement.spec).symm

/-- A child that is reaped leaves its spec to its replacement. -/
theorem Holding.reap {pid : Pid} {spec : RunnerSpec} (holding : Holding specs s)
    (found : s.children.lookup pid = some spec) :
    ∃ others, (spec :: others).Perm specs ∧
      Holding others { s with
        children := s.children.erase pid, childStartedAt := s.childStartedAt.erase pid } := by
  refine ⟨_, ?_, List.Perm.refl _, ?_⟩
  · have entries := (entries_perm_of_lookup found).map Sigma.snd
    exact ((entries.append_right _).symm).trans holding.held
  · intro pid'
    rw [AList.mem_erase, AList.mem_erase, holding.started]

/-- A spec is held again once its replacement is launched, or waits. -/
theorem replaceChild_of_survivable {others : List RunnerSpec} {spec : RunnerSpec} {pid : Pid}
    {status : Int} {startedAt : Option ℚ} (holding : Holding others s) (backed : Backoffs s)
    (fresh : poll.launchedPid ∉ s.children)
    (fine : RanLong startedAt poll.exitedAt ∨ s.failures spec.name < 1025) :
    ∃ replacement s', s.replaceChild spec pid status startedAt poll = (.ok replacement, s') ∧
      Holding (spec :: others) s' ∧ Backoffs s' := by
  rcases restartBackoffDelay_of_survivable backed fine with
    ⟨delay, s₁, computed, backed₁, children, started, waiting⟩
  have holding₁ : Holding others s₁ := by
    constructor
    · rw [heldSpecs, children, waiting]
      exact holding.held
    · rw [children, started]
      exact holding.started
  rw [replaceChild, computed]
  dsimp only
  split
  · refine ⟨_, _, rfl, ⟨?_, holding₁.started⟩, backed₁.of_frame rfl rfl⟩
    rw [heldSpecs, List.map_append, ← List.append_assoc]
    exact (List.perm_append_singleton _ _).trans (holding₁.held.cons spec)
  · exact ⟨_, _, rfl, holding₁.launchChild (children ▸ fresh) _, backed₁.of_frame rfl rfl⟩

/-- A poll that survives keeps the books. -/
theorem checkChildren_of_survivable (holding : Holding specs s) (backed : Backoffs s)
    (fresh : poll.launchedPid ∉ s.children) (fine : Survivable s poll) :
    ∃ replacement s', s.checkChildren poll = (.ok replacement, s') ∧ Holding specs s' ∧
      Backoffs s' := by
  unfold checkChildren
  cases popped : popDue poll.dueAt s.pendingChildReplacements with
  | some found =>
      rcases found with ⟨due, rest⟩
      exact ⟨_, _, rfl, holding.launchDue popped fresh, backed.of_frame rfl rfl⟩
  | none =>
      dsimp only
      split
      · exact ⟨_, _, rfl, holding, backed⟩
      · cases waited : poll.waitpid with
        | none => exact ⟨_, _, rfl, holding, backed⟩
        | some exited =>
            rcases exited with ⟨pid, status⟩
            dsimp only
            split
            · exact ⟨_, _, rfl, holding, backed⟩
            · rename_i child
              cases found : s.children.lookup pid with
              | none =>
                  -- no child of this supervisor: there is no start to forget either
                  have unknown : pid ∉ s.children := AList.lookup_eq_none.mp found
                  refine ⟨_, _, rfl, ⟨?_, ?_⟩, backed.of_frame rfl rfl⟩
                  · have same : (s.children.erase pid).entries = s.children.entries :=
                      List.kerase_of_notMem_keys unknown
                    rw [heldSpecs, same]
                    exact holding.held
                  · intro pid'
                    rw [AList.mem_erase, AList.mem_erase, holding.started]
              | some spec =>
                  rcases holding.reap found with ⟨others, split, reaped⟩
                  have gone : poll.launchedPid ∉ s.children.erase pid :=
                    fun mem => fresh (AList.mem_erase.mp mem).2
                  have brief := fine pid status spec popped waited child found
                  rcases replaceChild_of_survivable reaped (backed.of_frame rfl rfl) gone brief with
                    ⟨replacement, s', replaced, holding', backed'⟩
                  exact ⟨replacement, s', replaced, ⟨holding'.held.trans split, holding'.started⟩,
                    backed'⟩

/-- Whatever `check_children` may not survive, it does not survive. -/
theorem checkChildren_of_not_survivable (short : ¬ Survivable s poll) :
    (s.checkChildren poll).1 = .error (.overflowError "int too large to convert to float") := by
  simp only [Survivable, not_forall, not_or, not_lt] at short
  rcases short with ⟨pid, status, spec, popped, waited, child, found, brief, many⟩
  have running : s.children.keys ≠ [] := by
    intro empty
    have there : pid ∈ s.children := AList.lookup_isSome.mp (by simp [found])
    rw [AList.mem_keys, empty] at there
    exact absurd there List.not_mem_nil
  rw [checkChildren, popped]
  dsimp only
  rw [if_neg running, waited]
  dsimp only
  rw [if_neg child, found]
  dsimp only
  have raised := restartBackoffDelay_of_not_survivable (s := { s with
    children := s.children.erase pid, childStartedAt := s.childStartedAt.erase pid }) brief many
  rw [replaceChild]
  revert raised
  generalize restartBackoffDelay _ _ _ _ = result
  rcases result with ⟨error | delay, s'⟩
  · intro raised
    exact congrArg _ (Except.error.inj raised)
  · intro raised
    cases raised

end Steps

/-! ## Runs -/

/-- What holds of every call in a sequence of them, and of the state it starts in. -/
def EachPoll (P : ForkSupervisor → Poll → Prop) : ForkSupervisor → List Poll → Prop
  | _, [] => True
  | s, poll :: polls => P s poll ∧ EachPoll P (s.checkChildren poll).2 polls

/-- The launcher returns the pid of no child. -/
def LaunchesFresh (s : ForkSupervisor) (poll : Poll) : Prop := poll.launchedPid ∉ s.children

instance (s : ForkSupervisor) (poll : Poll) : Decidable (LaunchesFresh s poll) :=
  inferInstanceAs (Decidable (poll.launchedPid ∉ s.children))

/-- A call does not raise, and leaves the books in order. -/
def KeepsBooks (specs : List RunnerSpec) (s : ForkSupervisor) (poll : Poll) : Prop :=
  ∃ replacement s', s.checkChildren poll = (.ok replacement, s') ∧ Bookkept specs s'

section Runs

variable {specs : List RunnerSpec}

/-- Starting children touches neither failures nor delays. -/
theorem launchChildren_frame : ∀ (rest : List RunnerSpec) (s : ForkSupervisor)
    (launched : Nat → Pid × ℚ), (s.launchChildren rest launched).restartFailures = s.restartFailures ∧
      (s.launchChildren rest launched).backoffs = s.backoffs
  | [], _, _ => ⟨rfl, rfl⟩
  | spec :: rest, s, launched => launchChildren_frame rest
      (s.launchChild spec (launched 0).1 (launched 0).2) (fun i => launched (i + 1))

/-- Launching children for specs nobody held, under pids of their own. -/
theorem holding_launchChildren : ∀ {rest held : List RunnerSpec} {s : ForkSupervisor}
    {launched : Nat → Pid × ℚ}, Holding held s →
    (∀ i < rest.length, (launched i).1 ∉ s.children) →
    (∀ i < rest.length, ∀ j < rest.length, (launched i).1 = (launched j).1 → i = j) →
    Holding (rest ++ held) (s.launchChildren rest launched)
  | [], _, _, _, holding, _, _ => holding
  | spec :: rest, held, s, launched, holding, fresh, apart => by
      have first : Holding (spec :: held) _ :=
        holding.launchChild (fresh 0 (Nat.succ_pos _)) (launched 0).2
      have later : Holding (rest ++ spec :: held) ((s.launchChild spec (launched 0).1
          (launched 0).2).launchChildren rest (fun i => launched (i + 1))) := by
        apply holding_launchChildren first
        · intro i inside mem
          rcases (AList.mem_insert _).mp mem with same | old
          · exact absurd (apart (i + 1) (Nat.succ_lt_succ inside) 0 (Nat.succ_pos _) same)
              (Nat.succ_ne_zero i)
          · exact fresh (i + 1) (Nat.succ_lt_succ inside) old
        · intro i inside j inside' same
          exact Nat.succ.inj (apart (i + 1) (Nat.succ_lt_succ inside) (j + 1)
            (Nat.succ_lt_succ inside') same)
      exact ⟨later.held.trans List.perm_middle, later.started⟩

theorem backoffs_initial {s : ForkSupervisor} (none : s.backoffs = []) : Backoffs s := by
  have nobody (name : String) : s.backoffsOf name = [] := by
    rw [backoffsOf, none]
    rfl
  constructor
  · intro b mem
    rw [none] at mem
    exact absurd mem List.not_mem_nil
  · intro name
    rw [nobody]
    exact List.isChain_nil
  · intro name b last
    rw [nobody] at last
    cases last

theorem Bookkept.of_holding {s : ForkSupervisor} (holding : Holding specs s)
    (backed : Backoffs s) : Bookkept specs s :=
  ⟨holding, backed.bounded, backed.rising⟩

/-- The books stay in order as long as every call is survivable, and no longer. -/
theorem eachPoll_keepsBooks_iff : ∀ {polls : List Poll} {s : ForkSupervisor}, Holding specs s →
    Backoffs s → EachPoll LaunchesFresh s polls →
    (EachPoll (KeepsBooks specs) s polls ↔ EachPoll Survivable s polls)
  | [], _, _, _, _ => Iff.rfl
  | poll :: polls, s, holding, backed, fresh => by
      by_cases fine : Survivable s poll
      · rcases checkChildren_of_survivable holding backed fresh.1 fine with
          ⟨replacement, s', checked, holding', backed'⟩
        have next : (s.checkChildren poll).2 = s' := congrArg Prod.snd checked
        have later := eachPoll_keepsBooks_iff holding' backed' (next ▸ fresh.2)
        have here : KeepsBooks specs s poll :=
          ⟨replacement, s', checked, Bookkept.of_holding holding' backed'⟩
        rw [EachPoll, EachPoll, next, later]
        exact ⟨fun kept => ⟨fine, kept.2⟩, fun kept => ⟨here, kept.2⟩⟩
      · have raised := checkChildren_of_not_survivable fine
        constructor
        · rintro ⟨⟨replacement, s', checked, _⟩, _⟩
          rw [checked] at raised
          cases raised
        · exact fun kept => absurd kept.1 fine

/-- After the start every spec has its child. -/
theorem holding_startChildren (topology : Topology) {launched : Nat → Pid × ℚ}
    (apart : ∀ i < (buildRunnerSpecs topology).length, ∀ j < (buildRunnerSpecs topology).length,
      (launched i).1 = (launched j).1 → i = j) :
    Holding (buildRunnerSpecs topology) (initial.startChildren topology launched) := by
  have nothing : Holding [] initial := by
    refine ⟨List.Perm.refl _, fun pid => Iff.rfl⟩
  have launchedAll := holding_launchChildren nothing (fun i _ => AList.notMem_empty _) apart
  rw [List.append_nil] at launchedAll
  rw [startChildren, if_neg (by simp [initial])]
  exact launchedAll

theorem backoffs_startChildren (topology : Topology) (launched : Nat → Pid × ℚ) :
    Backoffs (initial.startChildren topology launched) := by
  apply backoffs_initial
  rw [startChildren, if_neg (by simp [initial])]
  exact (launchChildren_frame _ _ _).2

/-- From the start on, whatever exits and however often: no call raises and the books are in order
after each of them, exactly if no call reaps, after a short run, a child whose name has 1025 failures
in a row on record. -/
theorem restart_bookkeeping_iff (topology : Topology) (launched : Nat → Pid × ℚ)
    (polls : List Poll)
    (apart : ∀ i < (buildRunnerSpecs topology).length, ∀ j < (buildRunnerSpecs topology).length,
      (launched i).1 = (launched j).1 → i = j)
    (fresh : EachPoll LaunchesFresh (initial.startChildren topology launched) polls) :
    Bookkept (buildRunnerSpecs topology) (initial.startChildren topology launched) ∧
        EachPoll (KeepsBooks (buildRunnerSpecs topology)) (initial.startChildren topology launched)
          polls ↔
      EachPoll Survivable (initial.startChildren topology launched) polls := by
  have holding := holding_startChildren topology apart
  have backed := backoffs_startChildren topology launched
  rw [eachPoll_keepsBooks_iff holding backed fresh]
  exact and_iff_right (Bookkept.of_holding holding backed)

end Runs

/-! ## A crash loop -/

/-- A supervisor of a scheduler alone. -/
def schedulerOnly : ForkSupervisor :=
  initial.startChildren ⟨[], 0, true⟩ (fun i => (i + 1, 0))

/-- The scheduler's own spec. -/
def schedulerSpec : RunnerSpec := ⟨"scheduler", "scheduler-1"⟩

/-- Call `k`, half a minute after the one before: the child that call `k - 1` launched has exited. -/
def crashPoll (k : Nat) : Poll :=
  ⟨31 * k, some (k, 1), 31 * k, 31 * k, k + 1⟩

/-- The calls `k`, `k + 1`, ..., as many as are asked for. -/
def crashPolls (s : ForkSupervisor) (k : Nat) : Nat → ForkSupervisor
  | 0 => s
  | n + 1 => crashPolls (s.checkChildren (crashPoll k)).2 (k + 1) n

theorem crashPolls_succ (s : ForkSupervisor) (k n : Nat) :
    crashPolls s k (n + 1) = crashPolls (s.checkChildren (crashPoll k)).2 (k + 1) n :=
  rfl

/-- The child that call `k` launched, after so many failures. -/
def relaunched (k failures : Nat) (backoffs : List Backoff) : ForkSupervisor where
  children := AList.singleton (k + 1) schedulerSpec
  childStartedAt := AList.singleton (k + 1) (31 * k : ℚ)
  pendingChildReplacements := []
  restartFailures := AList.singleton "scheduler-1" failures
  backoffs := backoffs

/-- The child of call `k` has exited in the next one, and its spec waits. -/
def waiting (k failures : Nat) (backoffs : List Backoff) : ForkSupervisor where
  children := ∅
  childStartedAt := ∅
  pendingChildReplacements :=
    [⟨31 * (k + 1 : Nat) + clampedDelay failures, k + 1, schedulerSpec, 1⟩]
  restartFailures := AList.singleton "scheduler-1" failures
  backoffs := backoffs

theorem erase_singleton {κ : Type} [DecidableEq κ] {β : κ → Type} (a : κ) (b : β a) :
    (AList.singleton a b).erase a = ∅ :=
  AList.ext (List.kerase_cons_eq rfl)

theorem lookup_singleton {κ : Type} [DecidableEq κ] {β : κ → Type} (a : κ) (b : β a) :
    (AList.singleton a b).lookup a = some b := by
  rw [← AList.insert_empty, AList.lookup_insert]

/-- A child that ended after 31 seconds did not run long. -/
theorem not_ranLong (k : Nat) : ¬ RanLong (some (31 * k : ℚ)) (31 * (k + 1 : Nat)) := by
  rintro ⟨started, ⟨⟩, long⟩
  push_cast at long
  norm_num [restartBackoffResetAfter] at long
  linarith

/-- From the second failure on there is a delay. -/
theorem clampedDelay_ne_zero {failures : Nat} (again : 1 < failures) :
    clampedDelay failures ≠ 0 := by
  rw [clampedDelay, if_neg (by omega)]
  apply ne_of_gt
  apply lt_min
  · apply mul_pos
    · norm_num [restartBackoffBaseDelay]
    · positivity
  · norm_num [restartBackoffMaxDelay]

/-- The child ended again: another failure, and it waits. -/
theorem checkChildren_relaunched {k failures : Nat} (backoffs : List Backoff)
    (few : failures < 1025) (again : 1 ≤ failures) :
    (relaunched k failures backoffs).checkChildren (crashPoll (k + 1)) =
      (.ok none, waiting k (failures + 1) (backoffs ++
        [⟨"scheduler-1", false, clampedDelay (failures + 1)⟩])) := by
  have computed : ForkSupervisor.restartBackoffDelay
      ⟨∅, ∅, [], AList.singleton "scheduler-1" failures, backoffs⟩ "scheduler-1"
        (some (31 * k : ℚ)) (31 * (k + 1 : Nat)) =
      (.ok (clampedDelay (failures + 1)), ⟨∅, ∅, [], AList.singleton "scheduler-1" (failures + 1),
        backoffs ++ [⟨"scheduler-1", false, clampedDelay (failures + 1)⟩]⟩) := by
    rw [restartBackoffDelay, if_neg (not_ranLong k), ForkSupervisor.failures, lookup_singleton]
    dsimp only [Option.getD_some]
    rw [backoffDelay_of_lt (Nat.succ_lt_succ few), AList.insert_singleton_eq]
    rfl
  rw [checkChildren, relaunched, crashPoll]
  dsimp only [popDue]
  rw [if_neg (by simp), if_neg (Nat.succ_ne_zero k), lookup_singleton, lookup_singleton,
    erase_singleton, erase_singleton]
  dsimp only
  rw [replaceChild, schedulerSpec]
  dsimp only
  rw [computed]
  dsimp only
  rw [if_pos (clampedDelay_ne_zero (Nat.lt_succ_of_le again))]
  rfl

/-- A replacement whose time has come is started. -/
theorem checkChildren_waiting (k failures : Nat) (backoffs : List Backoff) :
    (waiting k failures backoffs).checkChildren (crashPoll (k + 2)) =
      (.ok (some (k + 3)), relaunched (k + 2) failures backoffs) := by
  have due : 31 * (k + 1 : Nat) + clampedDelay failures ≤ (31 * (k + 2 : Nat) : ℚ) := by
    have most := clampedDelay_le failures
    rw [restartBackoffMaxDelay] at most
    push_cast
    linarith
  rw [checkChildren, waiting, crashPoll]
  dsimp only
  rw [popDue, if_neg (not_lt.mpr due)]
  rfl

/-- The child exits at once, again and again. -/
theorem crashPolls_relaunched : ∀ {n k failures : Nat} (backoffs : List Backoff),
    1 ≤ failures → failures + n ≤ 1025 → ∃ backoffs',
      crashPolls (relaunched k failures backoffs) (k + 1) (2 * n) =
        relaunched (k + 2 * n) (failures + n) backoffs'
  | 0, _, _, backoffs, _, _ => ⟨backoffs, rfl⟩
  | n + 1, k, failures, backoffs, again, few => by
      have later : ∃ backoffs', crashPolls (relaunched (k + 2) (failures + 1) (backoffs ++
          [⟨"scheduler-1", false, clampedDelay (failures + 1)⟩])) (k + 2 + 1) (2 * n) =
            relaunched (k + 2 + 2 * n) (failures + 1 + n) backoffs' :=
        crashPolls_relaunched _ (by omega) (by omega)
      rcases later with ⟨backoffs', later⟩
      refine ⟨backoffs', ?_⟩
      rw [Nat.mul_succ, crashPolls, crashPolls,
        checkChildren_relaunched backoffs (by omega) again, checkChildren_waiting, later]
      congr 1 <;> omega

/-- The first failure costs no delay. -/
theorem checkChildren_schedulerOnly : (schedulerOnly.checkChildren (crashPoll 1)).2 =
    relaunched 1 1 [⟨"scheduler-1", false, 0⟩] := by
  have short : ¬ RanLong (some (0 : ℚ)) (31 * (1 : Nat)) := by
    decide +kernel
  have computed : ForkSupervisor.restartBackoffDelay ⟨∅, ∅, [], ∅, []⟩ "scheduler-1"
      (some (0 : ℚ)) (31 * (1 : Nat)) = (.ok 0, ⟨∅, ∅, [], AList.singleton "scheduler-1" 1,
        [⟨"scheduler-1", false, 0⟩]⟩) := by
    rw [restartBackoffDelay, if_neg short]
    rfl
  have started : schedulerOnly = ⟨AList.singleton 1 schedulerSpec, AList.singleton 1 0, [], ∅, []⟩ :=
    rfl
  rw [checkChildren, started, crashPoll]
  dsimp only [popDue]
  rw [if_neg (by simp), if_neg Nat.one_ne_zero, lookup_singleton, lookup_singleton,
    erase_singleton, erase_singleton]
  dsimp only
  rw [replaceChild, schedulerSpec]
  dsimp only
  rw [computed]
  dsimp only
  rw [if_neg (not_not.mpr rfl)]
  rfl

/-- The scheduler never lives for a minute: at its failure 1026 in a row `check_children` raises, and
its spec is neither a child's nor pending. -/
theorem crash_loop_loses_spec :
    ((crashPolls schedulerOnly 1 2049).checkChildren (crashPoll 2050)).1 =
        .error (.overflowError "int too large to convert to float") ∧
      ((crashPolls schedulerOnly 1 2049).checkChildren (crashPoll 2050)).2.heldSpecs = [] ∧
      buildRunnerSpecs ⟨[], 0, true⟩ = [schedulerSpec] := by
  have looped : ∃ backoffs, crashPolls schedulerOnly 1 2049 = relaunched 2049 1025 backoffs := by
    rcases crashPolls_relaunched [⟨"scheduler-1", false, 0⟩] (Nat.le_refl 1)
      (Nat.le_refl (1 + 1024)) with ⟨backoffs, later⟩
    refine ⟨backoffs, ?_⟩
    rw [crashPolls_succ schedulerOnly 1 2048, checkChildren_schedulerOnly]
    exact later
  rcases looped with ⟨backoffs, looped⟩
  have computed : ForkSupervisor.restartBackoffDelay
      ⟨∅, ∅, [], AList.singleton "scheduler-1" 1025, backoffs⟩ "scheduler-1"
        (some (31 * (2049 : Nat) : ℚ)) (31 * (2050 : Nat)) =
      (.error (.overflowError "int too large to convert to float"),
        ⟨∅, ∅, [], AList.singleton "scheduler-1" 1026, backoffs⟩) := by
    rw [restartBackoffDelay, if_neg (not_ranLong 2049), ForkSupervisor.failures, lookup_singleton]
    dsimp only [Option.getD_some]
    rw [backoffDelay_of_le (Nat.le_refl 1026), AList.insert_singleton_eq]
  have raised : (relaunched 2049 1025 backoffs).checkChildren (crashPoll 2050) =
      (.error (.overflowError "int too large to convert to float"),
        ⟨∅, ∅, [], AList.singleton "scheduler-1" 1026, backoffs⟩) := by
    rw [checkChildren, relaunched, crashPoll]
    dsimp only [popDue]
    rw [if_neg (by simp), if_neg (Nat.succ_ne_zero 2049), lookup_singleton, lookup_singleton,
      erase_singleton, erase_singleton]
    dsimp only
    rw [replaceChild, schedulerSpec]
    dsimp only
    rw [computed]
  rw [looped, raised]
  exact ⟨rfl, rfl, rfl⟩

/-- Three calls: the child exits, exits again, and is launched after a tenth of a second. -/
theorem restart_bookkeeping_iff_on_two_exits :
    Bookkept (buildRunnerSpecs ⟨[], 0, true⟩) (initial.startChildren ⟨[], 0, true⟩
        (fun i => (i + 1, 0))) ∧
      EachPoll (KeepsBooks (buildRunnerSpecs ⟨[], 0, true⟩)) (initial.startChildren ⟨[], 0, true⟩
        (fun i => (i + 1, 0))) [crashPoll 1, crashPoll 2, crashPoll 3] := by
  have second := checkChildren_relaunched (k := 1) [⟨"scheduler-1", false, 0⟩]
    (by decide : 1 < 1025) (Nat.le_refl 1)
  apply (restart_bookkeeping_iff ⟨[], 0, true⟩ (fun i => (i + 1, 0))
    [crashPoll 1, crashPoll 2, crashPoll 3] ?_ ?_).mpr
  · refine ⟨?_, ?_, ?_, trivial⟩
    · intro pid status spec _ _ _ _
      exact .inr (by decide : 0 < 1025)
    · change Survivable (schedulerOnly.checkChildren (crashPoll 1)).2 (crashPoll 2)
      rw [checkChildren_schedulerOnly]
      intro pid status spec _ waited _ found
      cases waited
      rw [relaunched, lookup_singleton] at found
      cases found
      exact .inr (by decide : 1 < 1025)
    · change Survivable ((schedulerOnly.checkChildren (crashPoll 1)).2.checkChildren
        (crashPoll 2)).2 (crashPoll 3)
      rw [checkChildren_schedulerOnly, second]
      intro pid status spec _ _ _ found
      cases found
  · intro i _ j _ same
    exact Nat.succ.inj same
  · refine ⟨?_, ?_, ?_, trivial⟩ <;> decide +kernel

end ForkSupervisor

end DjQueue
