import DjQueue.Relational.Ordering
import Mathlib.Logic.Function.Iterate

/-!
# Batch after batch from the front of a queue

A worker looks at the first `batch` entries of a queue, takes some of them away, and leaves the
others where they are. Whether it ever gets to the entries further back depends on how many of
those in front are left every time.
-/

namespace Relational

universe u

variable {α : Type u}

/-- One look at the front of a queue: what is kept there stays in front of the rest. -/
def sweep (batch : Nat) (keeps : α → Bool) (queue : List α) : List α :=
  (queue.take batch).filter keeps ++ queue.drop batch

/-- No entry that would be taken has a whole batch of kept ones before it. -/
def WithinReach (batch : Nat) (keeps : α → Bool) (queue : List α) : Prop :=
  ∀ front a back, queue = front ++ a :: back → keeps a = false → front.countP keeps < batch

variable {batch : Nat} {keeps : α → Bool} {queue : List α}

/-- A look changes nothing for what is further back. -/
theorem withinReach_sweep_iff :
    WithinReach batch keeps (sweep batch keeps queue) ↔ WithinReach batch keeps queue := by
  constructor
  · intro reach front a back split taken
    by_cases short : front.length < batch
    · exact Nat.lt_of_le_of_lt List.countP_le_length short
    · -- `a` is not in the first batch
      have long : batch ≤ front.length := Nat.not_lt.mp short
      have swept : sweep batch keeps queue =
          ((front.take batch).filter keeps ++ front.drop batch) ++ a :: back := by
        rw [sweep, split, List.take_append_of_le_length long, List.drop_append_of_le_length long,
          List.append_assoc]
      have counted := reach _ a back swept taken
      rw [List.countP_append, List.countP_filter] at counted
      simp only [Bool.and_self] at counted
      rwa [← List.countP_append, List.take_append_drop] at counted
  · intro reach front a back split taken
    rcases List.append_eq_append_iff.mp split with ⟨between, frontIs, rest⟩ | ⟨between, kept, rest⟩
    · have whole : queue = (queue.take batch ++ between) ++ a :: back := by
        rw [List.append_assoc, ← rest, List.take_append_drop]
      have counted := reach _ a back whole taken
      rw [frontIs, List.countP_append, List.countP_filter]
      simp only [Bool.and_self]
      rwa [List.countP_append] at counted
    · cases between with
      | nil =>
        have whole : queue = queue.take batch ++ a :: back := by
          rw [List.nil_append] at rest
          rw [rest, List.take_append_drop]
        have counted := reach _ a back whole taken
        rw [List.append_nil] at kept
        rw [← kept, List.countP_filter]
        simpa only [Bool.and_self] using counted
      | cons b between =>
        -- what was kept of the first batch is not taken
        rw [List.cons_append, List.cons.injEq] at rest
        have inFront : a ∈ (queue.take batch).filter keeps := by
          rw [kept, rest.1]
          exact List.mem_append_right _ List.mem_cons_self
        rw [(List.mem_filter.mp inFront).2] at taken
        cases taken

/-- The first entry that would be taken is in the first batch exactly if it is within reach. -/
theorem exists_mem_take_iff :
    (∃ a ∈ queue.take batch, keeps a = false) ↔
      ∃ front a back, queue = front ++ a :: back ∧ keeps a = false ∧
        front.countP keeps < batch := by
  constructor
  · rintro ⟨a, mem, taken⟩
    rcases List.append_of_mem mem with ⟨front, back, split⟩
    refine ⟨front, a, back ++ queue.drop batch, ?_, taken, ?_⟩
    · rw [← List.cons_append, ← List.append_assoc, ← split, List.take_append_drop]
    · have short : (queue.take batch).length ≤ batch := List.length_take_le _ _
      rw [split, List.length_append, List.length_cons] at short
      have counted : front.countP keeps ≤ front.length := List.countP_le_length
      omega
  · rintro ⟨front, a, back, split, taken, few⟩
    by_contra none
    push Not at none
    have kept : ∀ b ∈ queue.take batch, keeps b = true := by
      intro b mem
      exact Bool.not_eq_false _ ▸ none b mem
    by_cases short : front.length < batch
    · have mem : a ∈ queue.take batch := by
        rw [split, List.take_append, List.mem_append]
        have ⟨more, isMore⟩ : ∃ more, batch - front.length = more + 1 :=
          ⟨batch - front.length - 1, by omega⟩
        rw [isMore]
        exact .inr List.mem_cons_self
      rw [kept a mem] at taken
      cases taken
    · have all : (front.take batch).countP keeps = (front.take batch).length := by
        apply List.countP_eq_length.mpr
        intro b mem
        apply kept b
        rw [split, List.take_append_of_le_length (Nat.not_lt.mp short)]
        exact mem
      have part : (front.take batch).countP keeps ≤ front.countP keeps :=
        (List.take_sublist _ _).countP_le
      rw [all, List.length_take] at part
      omega

/-- Nothing is left to take. -/
def Drained (keeps : α → Bool) (queue : List α) : Prop := ∀ a ∈ queue, keeps a = true

/-- A queue with everything within reach, and something to take, gets shorter. -/
theorem WithinReach.sweep_shorter (reach : WithinReach batch keeps queue)
    (rest : ¬ Drained keeps queue) : (sweep batch keeps queue).length < queue.length := by
  unfold Drained at rest
  push Not at rest
  rcases rest with ⟨a, mem, taken⟩
  rw [Ne, Bool.not_eq_true] at taken
  rcases List.append_of_mem mem with ⟨front, back, split⟩
  rcases exists_mem_take_iff.mpr ⟨front, a, back, split, taken, reach front a back split taken⟩
    with ⟨b, inBatch, taken'⟩
  have fewer : ((queue.take batch).filter keeps).length < (queue.take batch).length :=
    List.length_filter_lt_length_iff_exists.mpr ⟨b, inBatch, by rw [taken']; nofun⟩
  have whole := congrArg List.length (List.take_append_drop batch queue)
  rw [List.length_append] at whole
  rw [sweep, List.length_append]
  omega

/-- Look after look, everything that is to be taken is taken, exactly if all of it is within
reach. -/
theorem exists_drained_iff :
    (∃ looks, Drained keeps ((sweep batch keeps)^[looks] queue)) ↔
      WithinReach batch keeps queue := by
  constructor
  · rintro ⟨looks, drained⟩
    have reached : WithinReach batch keeps ((sweep batch keeps)^[looks] queue) := by
      intro front a back split taken
      rw [drained a (by rw [split]; exact List.mem_append_right _ List.mem_cons_self)] at taken
      cases taken
    clear drained
    induction looks with
    | zero => exact reached
    | succ looks ih =>
      rw [Function.iterate_succ_apply', withinReach_sweep_iff] at reached
      exact ih reached
  · intro reach
    -- on the length of the queue
    induction len : queue.length using Nat.strongRecOn generalizing queue with
    | _ n ih =>
      by_cases drained : Drained keeps queue
      · exact ⟨0, drained⟩
      · have shorter := reach.sweep_shorter drained
        rcases ih _ (len ▸ shorter) (withinReach_sweep_iff.mpr reach) rfl with ⟨looks, later⟩
        exact ⟨looks + 1, later⟩

/-! ## Sorted queues -/

/-- In a sorted queue the entries before one that would be taken are those that are less. -/
theorem Orders.countP_before {le : α → α → Bool} (orders : Orders le) {rows : List α}
    (antisymm : ∀ a ∈ rows, ∀ b ∈ rows, le a b → le b a → a = b) {front back : List α} {a : α}
    (split : orderBy le rows = front ++ a :: back) (taken : keeps a = false) :
    front.countP keeps = rows.countP (fun b => keeps b && le b a) := by
  have sorted := orders.pairwise rows
  have inside : ∀ b ∈ orderBy le rows, b ∈ rows := fun b mem => mem_orderBy.mp mem
  rw [split] at sorted inside
  rcases List.pairwise_append.mp sorted with ⟨-, fromA, across⟩
  have before : front.countP (fun b => keeps b && le b a) = front.countP keeps := by
    apply List.countP_congr
    intro b mem
    rw [across b mem a List.mem_cons_self, Bool.and_true]
  have after : (a :: back).countP (fun b => keeps b && le b a) = 0 := by
    apply List.countP_eq_zero.mpr
    intro b mem both
    rcases Bool.and_eq_true_iff.mp both with ⟨kept, less⟩
    rcases List.mem_cons.mp mem with rfl | later
    · rw [taken] at kept
      cases kept
    · have more := (List.pairwise_cons.mp fromA).1 b later
      have same := antisymm a (inside a (List.mem_append_right _ List.mem_cons_self)) b
        (inside b (List.mem_append_right _ mem)) more less
      rw [← same, taken] at kept
      cases kept
  rw [← (orderBy_perm le rows).countP_eq, split, List.countP_append, before, after, Nat.add_zero]

section Sorted

variable {le : α → α → Bool} {rows : List α}

theorem withinReach_orderBy_iff (orders : Orders le)
    (antisymm : ∀ a ∈ rows, ∀ b ∈ rows, le a b → le b a → a = b) :
    WithinReach batch keeps (orderBy le rows) ↔
      ∀ a ∈ rows, keeps a = false → rows.countP (fun b => keeps b && le b a) < batch := by
  have mem_sorted {a : α} : a ∈ orderBy le rows ↔ a ∈ rows := mem_orderBy
  constructor
  · intro reach a mem taken
    rcases List.append_of_mem (mem_sorted.mpr mem) with ⟨front, back, split⟩
    rw [← orders.countP_before antisymm split taken]
    exact reach front a back split taken
  · intro few front a back split taken
    rw [orders.countP_before antisymm split taken]
    apply few a _ taken
    rw [← mem_sorted, split]
    exact List.mem_append_right _ List.mem_cons_self

theorem exists_mem_take_orderBy_iff (orders : Orders le)
    (antisymm : ∀ a ∈ rows, ∀ b ∈ rows, le a b → le b a → a = b) :
    (∃ a ∈ (orderBy le rows).take batch, keeps a = false) ↔
      ∃ a ∈ rows, keeps a = false ∧ rows.countP (fun b => keeps b && le b a) < batch := by
  have mem_sorted {a : α} : a ∈ orderBy le rows ↔ a ∈ rows := mem_orderBy
  rw [exists_mem_take_iff]
  constructor
  · rintro ⟨front, a, back, split, taken, few⟩
    rw [orders.countP_before antisymm split taken] at few
    refine ⟨a, ?_, taken, few⟩
    rw [← mem_sorted, split]
    exact List.mem_append_right _ List.mem_cons_self
  · rintro ⟨a, mem, taken, few⟩
    rcases List.append_of_mem (mem_sorted.mpr mem) with ⟨front, back, split⟩
    rw [← orders.countP_before antisymm split taken] at few
    exact ⟨front, a, back, split, taken, few⟩

end Sorted

end Relational
