import Mathlib.Logic.Function.Basic
import Mathlib.Logic.Relation

/-!
# Interleaved transactions

A pool gives every transaction its local state; a step moves one of them, or the shared
state, or both.  `Reach` is what any interleaving of the steps can reach.
-/

namespace Relational

universe u v

variable {σ : Type u} {φ : Type v}

/-- The local states of the transactions, by number. -/
abbrev Pool (φ : Type v) := Nat → φ

/-- Transaction `i` moves on to `x`. -/
def Pool.set (p : Pool φ) (i : Nat) (x : φ) : Pool φ := Function.update p i x

@[simp] theorem Pool.set_same (p : Pool φ) (i : Nat) (x : φ) : p.set i x i = x := by
  simp [Pool.set]

theorem Pool.set_other (p : Pool φ) {i j : Nat} (x : φ) (ne : j ≠ i) : p.set i x j = p j := by
  simp [Pool.set, Function.update_of_ne ne]

/-- A property of every transaction, when one of them moved. -/
theorem Pool.forall_set {p : Pool φ} {i : Nat} {x : φ} {P : Nat → φ → Prop}
    (moved : P i x) (others : ∀ j, j ≠ i → P j (p j)) : ∀ j, P j (p.set i x j) := by
  intro j
  by_cases same : j = i
  · subst same
    rw [Pool.set_same]
    exact moved
  · rw [Pool.set_other p x same]
    exact others j same

/-- A property of every two transactions, when one of them moved. -/
theorem Pool.forall_pair_set {p : Pool φ} {i : Nat} {x : φ} {P : φ → φ → Prop}
    (symm : ∀ a b, P a b → P b a) (moved : ∀ j, j ≠ i → P x (p j))
    (others : ∀ j k, j ≠ k → P (p j) (p k)) :
    ∀ j k, j ≠ k → P (p.set i x j) (p.set i x k) := by
  intro j k ne
  by_cases first : j = i
  · subst first
    rw [Pool.set_same, Pool.set_other p x (Ne.symm ne)]
    exact moved k (Ne.symm ne)
  · rw [Pool.set_other p x first]
    by_cases second : k = i
    · subst second
      rw [Pool.set_same]
      exact symm _ _ (moved j first)
    · rw [Pool.set_other p x second]
      exact others j k ne

/-- The states an interleaving of the steps reaches. -/
abbrev Reach (step : σ → σ → Prop) : σ → σ → Prop := Relation.ReflTransGen step

/-- What every step keeps, every run keeps. -/
theorem Reach.invariant {step : σ → σ → Prop} {I : σ → Prop}
    (keeps : ∀ {s t}, I s → step s t → I t) {s t : σ} (start : I s) (run : Reach step s t) :
    I t := by
  induction run with
  | refl => exact start
  | tail _ last ih => exact keeps ih last

end Relational
