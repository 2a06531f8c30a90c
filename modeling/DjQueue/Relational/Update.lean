import Mathlib.Logic.Basic

/-!
# `UPDATE` statements and the order of their assignments

An `UPDATE` is a filter and a list of column assignments.  The databases disagree on
what a right-hand side sees: the row as it was (`simultaneous`), or the row with the
columns to the left already assigned (`leftToRight`).
-/

namespace Relational

universe u

/-- One assignment: the expression is evaluated on `source` and stored in `target`. -/
structure Assignment (ρ : Type u) where
  set : (source target : ρ) → ρ

/-- Whether the assignments of an `UPDATE` read the row as it was, or as the earlier ones left it.
-/
inductive EvaluationOrder where
  | simultaneous
  | leftToRight
deriving DecidableEq, Repr

variable {ρ : Type u}

/-- The assignments carried out in their order. -/
def assign : EvaluationOrder → List (Assignment ρ) → ρ → ρ
  | .simultaneous, assignments, row => assignments.foldl (fun target a => a.set row target) row
  | .leftToRight, assignments, row => assignments.foldl (fun target a => a.set target target) row

/-- Whatever every assignment keeps of its target, the whole list keeps, in either order. -/
theorem assign_induction {P : ρ → Prop} (order : EvaluationOrder)
    {assignments : List (Assignment ρ)} {row : ρ}
    (keeps : ∀ a ∈ assignments, ∀ source target, P target → P (a.set source target))
    (start : P row) : P (assign order assignments row) := by
  have fold : ∀ (l : List (Assignment ρ)) (source : ρ → ρ) (target : ρ),
      (∀ a ∈ l, ∀ s t, P t → P (a.set s t)) → P target →
      P (l.foldl (fun target a => a.set (source target) target) target) := by
    intro l source
    induction l with
    | nil => exact fun _ _ holds => holds
    | cons a l ih =>
        intro target keepsAll holds
        exact ih _ (fun b mem => keepsAll b (List.mem_cons_of_mem _ mem))
          (keepsAll a List.mem_cons_self _ _ holds)
  cases order with
  | simultaneous => exact fold _ (fun _ => row) row keeps start
  | leftToRight => exact fold _ id row keeps start

/-- A filter and its assignments. -/
structure Update (ρ : Type u) where
  filter : ρ → Bool
  assignments : List (Assignment ρ)

/-- The row after the update. -/
def Update.run (order : EvaluationOrder) (u : Update ρ) (row : ρ) : ρ :=
  if u.filter row then assign order u.assignments row else row

/-- What every assignment keeps holds after the update. -/
theorem Update.run_induction {P : ρ → Prop} (order : EvaluationOrder) {u : Update ρ} {row : ρ}
    (keeps : ∀ a ∈ u.assignments, ∀ source target, P target → P (a.set source target))
    (start : P row) : P (u.run order row) := by
  unfold Update.run
  split
  · exact assign_induction order keeps start
  · exact start

end Relational
