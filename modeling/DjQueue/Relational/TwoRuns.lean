import DjQueue.Relational.Session

/-!
# Two runs side by side

`Parallel R V x y`: from states related by `R`, the sessions `x` and `y` end the same way, in states
related by `R`; they return values related by `V`, or raise the same exception.  What tells the
states apart then has no influence on what the sessions do.
-/

namespace Relational

universe u

variable {ε σ : Type u} {α β γ δ : Type u}

/-- Two outcomes that only differ as `R` and `V` allow. -/
inductive Alike (R : σ → σ → Prop) (V : α → β → Prop) :
    EStateM.Result ε σ α → EStateM.Result ε σ β → Prop
  | ok {a : α} {b : β} {s t : σ} (value : V a b) (state : R s t) : Alike R V (.ok a s) (.ok b t)
  | error {e : ε} {s t : σ} (state : R s t) : Alike R V (.error e s) (.error e t)

/-- A session returns once. -/
theorem Runs.unique {x : EStateM ε σ α} {s t t' : σ} {a a' : α} (run : Runs x s a t)
    (again : Runs x s a' t') : a' = a ∧ t' = t := by
  rw [Runs, show x s = .ok a t from run] at again
  cases again
  exact ⟨rfl, rfl⟩

/-- Two sessions that return. -/
theorem alike_iff_of_runs {R : σ → σ → Prop} {V : α → β → Prop} {x : EStateM ε σ α}
    {y : EStateM ε σ β} {s t s' t' : σ} {a : α} {b : β} (left : Runs x s a s')
    (right : Runs y t b t') : Alike R V (x s) (y t) ↔ V a b ∧ R s' t' := by
  rw [show x s = .ok a s' from left, show y t = .ok b t' from right]
  constructor
  · intro alike
    cases alike with
    | ok value state => exact ⟨value, state⟩
  · rintro ⟨value, state⟩
    exact .ok value state

/-- One session returns and the other raises. -/
theorem not_alike_of_fails {R : σ → σ → Prop} {V : α → β → Prop} {x : EStateM ε σ α}
    {y : EStateM ε σ β} {s t s' : σ} {a : α} {e : ε} (left : Runs x s a s') (right : Fails y t e) :
    ¬ Alike R V (x s) (y t) := by
  rcases right with ⟨t', right⟩
  rw [show x s = .ok a s' from left, show y t = .error e t' from right]
  intro alike
  cases alike

/-- Two sessions that raise raise the same. -/
theorem eq_of_alike_of_fails {R : σ → σ → Prop} {V : α → β → Prop} {x : EStateM ε σ α}
    {y : EStateM ε σ β} {s t : σ} {e e' : ε} (left : Fails x s e) (right : Fails y t e')
    (alike : Alike R V (x s) (y t)) : e = e' := by
  rcases left with ⟨s', left⟩
  rcases right with ⟨t', right⟩
  rw [show x s = .error e s' from left, show y t = .error e' t' from right] at alike
  cases alike
  rfl

theorem Alike.symm {R : σ → σ → Prop} {r r' : EStateM.Result ε σ α} (back : ∀ {s t}, R s t → R t s)
    (alike : Alike R Eq r r') : Alike R Eq r' r := by
  cases alike with
  | ok value state => exact .ok value.symm (back state)
  | error state => exact .error (back state)

/-- Two programs end alike from related states. -/
def Parallel (R : σ → σ → Prop) (V : α → β → Prop) (x : EStateM ε σ α) (y : EStateM ε σ β) : Prop :=
  ∀ s t, R s t → Alike R V (x s) (y t)

namespace Parallel

variable {R : σ → σ → Prop} {V : α → β → Prop} {W : γ → δ → Prop}

theorem pure {a : α} {b : β} (value : V a b) :
    Parallel (ε := ε) R V (Pure.pure a) (Pure.pure b) :=
  fun _ _ related => .ok value related

theorem throw (e : ε) :
    Parallel R V (MonadExcept.throw e : EStateM ε σ α) (MonadExcept.throw e : EStateM ε σ β) :=
  fun _ _ related => .error related

/-- Sequences of parts that end alike. -/
theorem bind {x : EStateM ε σ α} {y : EStateM ε σ β} {f : α → EStateM ε σ γ}
    {g : β → EStateM ε σ δ} (first : Parallel R V x y)
    (second : ∀ a b, V a b → Parallel R W (f a) (g b)) : Parallel R W (x >>= f) (y >>= g) := by
  intro s t related
  have outcome := first s t related
  simp only [Bind.bind, EStateM.bind]
  generalize x s = r at outcome ⊢
  generalize y t = r' at outcome ⊢
  cases outcome with
  | ok value state => exact second _ _ value _ _ state
  | error state => exact .error state

/-- The first parts return the same. -/
theorem bind_eq {x y : EStateM ε σ α} {f : α → EStateM ε σ γ} {g : α → EStateM ε σ δ}
    (first : Parallel R Eq x y) (second : ∀ a, Parallel R W (f a) (g a)) :
    Parallel R W (x >>= f) (y >>= g) :=
  bind first fun a b same => by
    subst same
    exact second a

theorem ofExcept (x : Except ε α) :
    Parallel R Eq (MonadExcept.ofExcept x : EStateM ε σ α) (MonadExcept.ofExcept x) := by
  cases x with
  | error e => exact throw e
  | ok a => exact pure rfl

theorem runIf {x y : EStateM ε σ PUnit} (c : Bool) (body : Parallel R Eq x y) :
    Parallel R Eq (runIf c x) (runIf c y) := by
  unfold Relational.runIf
  cases c with
  | false => exact pure rfl
  | true => exact body

theorem forM {f : α → EStateM ε σ PUnit} (body : ∀ a, Parallel R Eq (f a) (f a)) :
    ∀ l : List α, Parallel R Eq (l.forM f) (l.forM f)
  | [] => pure rfl
  | a :: l => bind_eq (body a) fun _ => forM body l

/-- Atomic blocks, where undoing relates what was undone. -/
theorem atomic {undo : σ → σ → σ}
    (undone : ∀ s t s' t', R s t → R s' t' → R (undo s s') (undo t t'))
    {x : EStateM ε σ α} {y : EStateM ε σ β} (body : Parallel R V x y) :
    Parallel R V (atomic undo x) (atomic undo y) := by
  intro s t related
  have outcome := body s t related
  simp only [Relational.atomic]
  generalize x s = r at outcome ⊢
  generalize y t = r' at outcome ⊢
  cases outcome with
  | ok value state => exact .ok value state
  | error state => exact .error (undone _ _ _ _ related state)

end Parallel

end Relational
