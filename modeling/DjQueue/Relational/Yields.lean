import DjQueue.Relational.Session

/-!
# What a computation without a state gives

`Yields P x`: if `x` returns, its result satisfies `P`.  Whatever a computation is put together
from, the rules follow its construction.
-/

namespace Relational

variable {ε α β : Type}

/-- Whatever is returned has a property. -/
def Yields (P : α → Prop) (x : Except ε α) : Prop := ∀ a, x = .ok a → P a

namespace Yields

variable {P Q : α → Prop} {R : β → Prop}

theorem ok {a : α} (h : P a) : Yields P (.ok a : Except ε α) := by
  intro b eq
  cases eq
  exact h

theorem pure {a : α} (h : P a) : Yields P (Pure.pure a : Except ε α) := ok h

theorem error {e : ε} : Yields P (.error e : Except ε α) := by
  intro b eq
  cases eq

theorem mono {x : Except ε α} (weaker : ∀ a, P a → Q a) (h : Yields P x) : Yields Q x :=
  fun a eq => weaker a (h a eq)

theorem trivial (x : Except ε α) : Yields (fun _ => True) x := fun _ _ => True.intro

theorem bind {x : Except ε α} {f : α → Except ε β} (h : Yields P x)
    (next : ∀ a, P a → Yields R (f a)) : Yields R (x >>= f) := by
  cases x with
  | error e => exact error
  | ok a => exact next a (h a rfl)

theorem map {x : Except ε α} {f : α → β} (h : Yields P x) (next : ∀ a, P a → R (f a)) :
    Yields R (x.map f) := by
  cases x with
  | error e => exact error
  | ok a => exact ok (next a (h a rfl))

theorem functorMap {x : Except ε α} {f : α → β} (h : Yields P x) (next : ∀ a, P a → R (f a)) :
    Yields R (f <$> x) :=
  map h next

theorem mapM {f : α → Except ε β} {l : List α} (h : ∀ a ∈ l, Yields R (f a)) :
    Yields (fun results => ∀ b ∈ results, R b) (l.mapM f) := by
  intro results eq b inside
  have each := forall₂_of_mapM_ok eq
  clear eq
  induction each with
  | nil => cases inside
  | cons first _ ih =>
      rcases List.mem_cons.mp inside with rfl | later
      · exact h _ List.mem_cons_self b first
      · exact ih (fun a mem => h a (List.mem_cons_of_mem _ mem)) later

theorem and {x : Except ε α} (first : Yields P x) (second : Yields Q x) :
    Yields (fun a => P a ∧ Q a) x :=
  fun a eq => ⟨first a eq, second a eq⟩

/-- A nonempty list gives a nonempty one. -/
theorem mapM_ne_nil {f : α → Except ε β} {l : List α} (some : l ≠ []) :
    Yields (· ≠ []) (l.mapM f) := by
  intro results eq empty
  have each := forall₂_of_mapM_ok eq
  rw [empty] at each
  cases each
  exact some rfl

/-- A fold, from a start that has the property. -/
theorem foldlM {f : β → α → Except ε β} {l : List α} {b : β} (start : R b)
    (h : ∀ b, R b → ∀ a ∈ l, Yields R (f b a)) : Yields R (l.foldlM f b) := by
  induction l generalizing b with
  | nil => exact ok start
  | cons a l ih =>
      rw [List.foldlM_cons]
      exact bind (h b start a List.mem_cons_self)
        (fun b' h' => ih h' (fun b hb a' mem => h b hb a' (List.mem_cons_of_mem _ mem)))

end Yields

end Relational
