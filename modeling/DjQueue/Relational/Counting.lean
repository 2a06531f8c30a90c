import Mathlib.Algebra.BigOperators.Group.List.Basic
import Mathlib.Algebra.GroupWithZero.Nat
import Mathlib.Data.List.Nodup
import Mathlib.Order.Basic

/-!
# How many elements meet a condition

More than one element does exactly when some pair does; and counting the elements for each of some
conditions comes to the same as counting the conditions for each element.
-/

namespace Relational

universe u v

variable {α : Type u} {κ : Type v} {p : α → Bool}

/-- `itertools.combinations(l, 2)` -/
def combinations : List α → List (α × α)
  | [] => []
  | a :: l => l.map (fun b => (a, b)) ++ combinations l

/-- Some pair meets the condition exactly when more than one element does. -/
theorem any_combinations (p : α → Bool) (l : List α) :
    (combinations l).any (fun x => p x.1 && p x.2) = decide (1 < (l.filter p).length) := by
  induction l with
  | nil => rfl
  | cons a l ih =>
      have with_first : (l.map (fun b => (a, b))).any (fun x => p x.1 && p x.2) =
          (p a && l.any p) := by
        rw [List.any_map]
        cases first : p a with
        | false => simp [Function.comp_def, first]
        | true => simp [Function.comp_def, first]
      have some_iff : l.any p = decide (0 < (l.filter p).length) := by
        rw [Bool.eq_iff_iff, List.any_eq_true, decide_eq_true_eq, List.length_pos_iff_exists_mem]
        simp only [List.mem_filter]
      rw [combinations, List.any_append, with_first, ih, some_iff, List.filter_cons]
      cases first : p a with
      | false => simp
      | true =>
          rw [if_pos rfl, List.length_cons, Bool.true_and, ← Bool.decide_or]
          exact decide_eq_decide.mpr (by omega)

theorem sum_map_ite (p : κ → Bool) (ks : List κ) :
    (ks.map (fun k => if p k then 1 else 0)).sum = (ks.filter p).length := by
  induction ks with
  | nil => rfl
  | cons k ks ih =>
      rw [List.map_cons, List.sum_cons, ih, List.filter_cons]
      cases meets : p k with
      | false => simp
      | true => simp [Nat.add_comm]

/-- Counting twice. -/
theorem sum_length_filter (meets : κ → α → Bool) (ks : List κ) (l : List α) :
    (ks.map (fun k => (l.filter (meets k)).length)).sum =
      (l.map (fun a => (ks.filter (fun k => meets k a)).length)).sum := by
  induction l with
  | nil => simp
  | cons a l ih =>
      have first (k : κ) : ((a :: l).filter (meets k)).length =
          (if meets k a then 1 else 0) + (l.filter (meets k)).length := by
        rw [List.filter_cons]
        cases hit : meets k a with
        | false => simp
        | true => simp [Nat.add_comm]
      rw [List.map_cons, List.sum_cons, ← ih, ← sum_map_ite, ← List.sum_map_add]
      exact congrArg List.sum (List.map_congr_left fun k _ => first k)

end Relational
