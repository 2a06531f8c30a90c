import DjQueue.Relational.Isolation
import DjQueue.Recurring.Firing

/-!
# The loops of a poll

`fire_due_recurring_tasks` counts what is left of its batch through two nested loops.  A batch with
room for all that the tasks need never stops them, and the poll is then the plain loop over its
tasks.
-/

namespace DjQueue

open Relational

/-! ## The batch -/

/-- The batch lasts for `n` firings. -/
def Room (remaining : Option Int) (n : Nat) : Prop := ∀ m, remaining = some m → (n : Int) ≤ m

/-- What firing these tasks takes from the batch. -/
def demand (pending : List RecurringExecution) (tasks : List RecurringTask) : Nat :=
  (tasks.map (fun t => (pending.filter (fun e => e.taskKey == t.key)).length + 1)).sum

section Room

variable {remaining : Option Int} {n k : Nat}

theorem Room.mono (room : Room remaining n) (fewer : k ≤ n) : Room remaining k :=
  fun m here => le_trans (by exact_mod_cast fewer) (room m here)

/-- A batch that lasts for one more firing is not spent. -/
theorem Room.unspent (room : Room remaining (n + 1)) : spent remaining = false := by
  cases remaining with
  | none => rfl
  | some m =>
      have enough := room m rfl
      simp only [spent, beq_eq_false_iff_ne, ne_eq, Option.some.injEq]
      omega

/-- Each job enqueued takes one place. -/
theorem Room.spend (room : Room remaining (n + 1)) : Room (spend remaining) n := by
  intro m here
  rcases Option.map_eq_some_iff.mp here with ⟨before, left, rfl⟩
  have enough := room before left
  omega

/-- What is left once `k` firings are paid for. -/
theorem Room.after (room : Room remaining (k + n)) :
    Room (remaining.map (fun m : Int => m - k)) n := by
  intro m here
  rcases Option.map_eq_some_iff.mp here with ⟨before, left, rfl⟩
  have enough := room before left
  omega

theorem Room.eq_zero (room : Room remaining n) (done : spent remaining = true) : n = 0 := by
  have enough := room 0 (beq_iff_eq.mp done)
  omega

end Room

section Demand

variable (pending : List RecurringExecution) {tasks : List RecurringTask}

/-- A task asks for its waiting runs and for its latest. -/
theorem demand_cons (t : RecurringTask) (tasks : List RecurringTask) : demand pending (t :: tasks) =
    (pending.filter (fun e => e.taskKey == t.key)).length + 1 + demand pending tasks := rfl

theorem eq_nil_of_demand (free : demand pending tasks = 0) : tasks = [] := by
  cases tasks with
  | nil => rfl
  | cons t tasks =>
      rw [demand_cons] at free
      omega

/-- Every waiting run is counted for one task at most. -/
theorem demand_le : ∀ {tasks : List RecurringTask} (pending : List RecurringExecution),
    (tasks.map RecurringTask.key).Nodup → demand pending tasks ≤ tasks.length + pending.length
  | [], pending, _ => Nat.zero_le _
  | t :: tasks, pending, nodup => by
      rw [List.map_cons, List.nodup_cons] at nodup
      have others : demand pending tasks =
          demand (pending.filter (fun e => !(e.taskKey == t.key))) tasks := by
        unfold demand
        congr 1
        apply List.map_congr_left
        intro t' mem
        rw [List.filter_filter]
        congr 2
        apply List.filter_congr
        intro e _
        cases here : e.taskKey == t'.key with
        | false => rfl
        | true =>
            have apart : (e.taskKey == t.key) = false := by
              rw [beq_eq_false_iff_ne, beq_iff_eq.mp here]
              intro same
              exact nodup.1 (same ▸ List.mem_map_of_mem mem)
            rw [apart]
            rfl
      have rest := demand_le (pending.filter (fun e => !(e.taskKey == t.key))) nodup.2
      have split := List.length_eq_length_filter_add (l := pending) (fun e => e.taskKey == t.key)
      rw [demand_cons, others, List.length_cons]
      omega

end Demand

/-! ## The loops without a batch -/

/-- Runs of one task, one after the other. -/
def fireRuns (env : Env) (taskId : Nat) : List RecurringExecution → Op (List Job)
  | [] => pure []
  | e :: rest => do
      let fired ← fireAndLoad env taskId e.runAt
      let others ← fireRuns env taskId rest
      pure (fired ++ others)

/-- One task: the runs that wait for their jobs, then the latest one. -/
def fireTask (env : Env) (now : Time) (pending : List RecurringExecution) (t : RecurringTask) :
    Op (List Job) := do
  let published ← fireRuns env t.id (pending.filter (fun e => e.taskKey == t.key))
  let fired ← fireLatest env now t none
  pure (published ++ fired.1)

section Batch

variable (env : Env) (now : Time)

/-- A batch with room for one firing more than the waiting runs does not stop the loop over them. -/
theorem firePending_eq (taskId : Nat) :
    ∀ (pending : List RecurringExecution) {remaining : Option Int},
      Room remaining (pending.length + 1) →
      firePending env taskId pending remaining =
        (fun jobs => (jobs, remaining.map (fun n : Int => n - (pending.length : Nat)))) <$>
          fireRuns env taskId pending
  | [], remaining, _ => by
      cases remaining <;> simp [firePending, fireRuns]
  | e :: pending, remaining, room => by
      have room : Room (spend remaining) (pending.length + 1) := Room.spend room
      have others := firePending_eq taskId pending room
      have count : (spend remaining).map (fun n : Int => n - (pending.length : Nat)) =
          remaining.map (fun n : Int => n - ((e :: pending).length : Nat)) := by
        cases remaining with
        | none => rfl
        | some n =>
            simp only [spend, Option.map_some, Option.some.injEq, List.length_cons]
            omega
      simp only [firePending, fireRuns, room.unspent, Bool.false_eq_true, if_false, others, count,
        bind_map_left, map_bind, map_pure]

/-- The latest run takes one from the batch, unless the cursor lies ahead. -/
theorem fireLatest_eq (t : RecurringTask) (remaining : Option Int) :
    fireLatest env now t remaining =
      (fun r : List Job × Option Int =>
        (r.1, if t.nextRunAt.any (fun n => now < n) then remaining else spend remaining)) <$>
          fireLatest env now t none := by
  unfold fireLatest
  split
  · rw [map_pure]
  · simp only [map_bind, map_pure]

/-- With a batch for everything the tasks need, a poll is the loop over them. -/
theorem fireTasks_eq (pending : List RecurringExecution) :
    ∀ {tasks : List RecurringTask} {remaining : Option Int}, Room remaining (demand pending tasks) →
      fireTasks env now pending tasks remaining = eachOf (fireTask env now pending) tasks
  | [], _, _ => rfl
  | t :: tasks, remaining, room => by
      rw [demand_cons, Nat.add_assoc, Nat.add_comm 1] at room
      have published := firePending_eq env t.id
        (pending.filter (fun e => e.taskKey == t.key)) (room.mono (by omega))
      have left := room.after
      simp only [fireTasks, published, bind_map_left, left.unspent, Bool.false_eq_true, if_false,
        eachOf, fireTask, bind_assoc, pure_bind]
      apply congrArg
      funext published
      rw [fireLatest_eq, bind_map_left]
      apply congrArg
      funext fired
      dsimp only
      generalize here : (if t.nextRunAt.any (fun n => now < n) then _ else _ : Option Int) = left'
      have room' : Room left' (demand pending tasks) := by
        rw [← here]
        split
        · exact left.mono (Nat.le_succ _)
        · exact left.spend
      split
      · -- the batch is spent, so this was the last task
        rename_i done
        have last := eq_nil_of_demand pending (room'.eq_zero done)
        subst last
        simp only [eachOf, pure_bind, List.append_nil]
      · rw [fireTasks_eq pending room']

theorem fireTasks_singleton (pending : List RecurringExecution) (t : RecurringTask) :
    fireTasks env now pending [t] none = fireTask env now pending t := by
  rw [fireTasks_eq env now pending (by rintro n ⟨⟩)]
  simp only [eachOf, pure_bind, List.append_nil, bind_pure]

end Batch

section Runs

variable {env : Env} {now : Time} {w w' : World}

/-- Firing a run and loading its jobs. -/
theorem of_run_fireAndLoad {taskId : Nat} {runAt : Time} {jobs : List Job}
    (run : Runs (fireAndLoad env taskId runAt) w jobs w') :
    ∃ x, Runs (fireRecurringTask env taskId runAt) w x w' := by
  rcases Runs.of_bind run with ⟨x, w₁, fired, rest⟩
  rcases Runs.of_bind rest with ⟨db, w₂, read, done⟩
  rcases of_run_getDb read with ⟨-, rfl⟩
  rcases Runs.of_pure done with ⟨-, rfl⟩
  exact ⟨x, fired⟩

/-- Firing a task: its waiting runs, and then its latest. -/
theorem of_run_fireTask {pending : List RecurringExecution} {t : RecurringTask} {jobs : List Job}
    (run : Runs (fireTask env now pending t) w jobs w') :
    ∃ published fired w₁,
      Runs (fireRuns env t.id (pending.filter (fun e => e.taskKey == t.key))) w published w₁ ∧
        Runs (fireLatest env now t none) w₁ fired w' := by
  rcases Runs.of_bind run with ⟨published, w₁, first, rest⟩
  rcases Runs.of_bind rest with ⟨fired, w₂, second, done⟩
  rcases Runs.of_pure done with ⟨-, rfl⟩
  exact ⟨published, fired, w₁, first, second⟩

end Runs

end DjQueue
