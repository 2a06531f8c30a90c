import DjQueue.Relational.Session
import DjQueue.Relational.Table

/-!
# Invariants of one part of a state

A session upholds an invariant of a part of its state if the part has it after every returning run
that started with it.  A loop upholds what its body does, and a session that undoes what it did
when it raises upholds it however it ends.
-/

namespace Relational

universe u

section Rows

variable {ρ : Type u} {P : ρ → Prop} {t : Table ρ}

/-- What holds of the rows and of the new one. -/
theorem Table.forall_insert {mk : Nat → ρ} (all : ∀ r ∈ t.rows, P r) (new : P (mk t.nextId)) :
    ∀ r ∈ (t.insert mk).rows, P r := by
  intro r mem
  rcases List.mem_append.mp mem with old | mem
  · exact all r old
  · rw [List.mem_singleton.mp mem]
    exact new

theorem Table.forall_deleteWhere {p : ρ → Bool} (all : ∀ r ∈ t.rows, P r) :
    ∀ r ∈ (t.deleteWhere p).rows, P r :=
  fun r mem => all r (List.mem_of_mem_filter mem)

theorem Table.forall_updateWhere {p : ρ → Bool} {f : ρ → ρ} (all : ∀ r ∈ t.rows, P r)
    (keeps : ∀ r ∈ t.rows, p r = true → P (f r)) : ∀ r ∈ (t.updateWhere p f).rows, P r := by
  intro r mem
  rcases List.mem_map.mp mem with ⟨old, there, rfl⟩
  split
  · rename_i hit
    exact keeps old there hit
  · exact all old there

end Rows

variable {ε σ τ α β : Type u} {part : σ → τ} {I : τ → Prop}

/-- A predicate of a part of the state goes on holding. -/
def StillHolds (part : σ → τ) (I : τ → Prop) (s t : σ) : Prop := I (part s) → I (part t)

/-- A program keeps a predicate of a part of the state wherever it returns. -/
def Upholds (part : σ → τ) (I : τ → Prop) (x : EStateM ε σ α) : Prop :=
  Relates (StillHolds part I) x

/-- However the session ends. -/
def EndsUpheld (part : σ → τ) (I : τ → Prop) (x : EStateM ε σ α) : Prop :=
  Leads (fun s => I (part s)) (fun _ t => I (part t)) x

namespace Upholds

/-- A program that leaves the part alone. -/
theorem of_same {x : EStateM ε σ α} (same : ∀ s a t, Runs x s a t → part t = part s) :
    Upholds part I x := by
  intro s a t run holds
  rw [same s a t run]
  exact holds

theorem pure (a : α) : Upholds part I (Pure.pure a : EStateM ε σ α) :=
  of_same fun _ _ _ run => by rw [(Runs.of_pure run).2]

theorem throw (e : ε) : Upholds part I (throw e : EStateM ε σ α) := Relates.throw e

theorem bind {x : EStateM ε σ α} {f : α → EStateM ε σ β} (first : Upholds part I x)
    (second : ∀ a, Upholds part I (f a)) : Upholds part I (x >>= f) :=
  Relates.bind (R := StillHolds part I) (fun _ _ _ before after holds => after (before holds))
    first second

/-- What the first part returns may be looked at with the invariant in hand. -/
theorem bind_of {P : α → Prop} {x : EStateM ε σ α} {f : α → EStateM ε σ β}
    (first : ∀ s a t, I (part s) → Runs x s a t → I (part t) ∧ P a)
    (second : ∀ a, P a → Upholds part I (f a)) : Upholds part I (x >>= f) := by
  intro s b t run holds
  rcases Runs.of_bind run with ⟨a, m, head, tail⟩
  rcases first s a m holds head with ⟨holds, property⟩
  exact second a property m b t tail holds

theorem runIf (c : Bool) {x : EStateM ε σ PUnit} (body : Upholds part I x) :
    Upholds part I (runIf c x) :=
  Relates.runIf (R := StillHolds part I) (fun _ holds => holds) c body

theorem forM {f : β → EStateM ε σ PUnit} (body : ∀ b, Upholds part I (f b)) (l : List β) :
    Upholds part I (l.forM f) :=
  Relates.forM (R := StillHolds part I) (fun _ holds => holds)
    (fun _ _ _ before after holds => after (before holds)) body l

theorem atomic {undo : σ → σ → σ} {x : EStateM ε σ α} (body : Upholds part I x) :
    Upholds part I (atomic undo x) := Relates.atomic body

theorem ofExcept (x : Except ε α) : Upholds part I (MonadExcept.ofExcept x : EStateM ε σ α) :=
  of_same fun _ _ _ run => by rw [(Runs.of_ofExcept run).2]

end Upholds

namespace EndsUpheld

/-- Where a raise has undone the part, a program that returns well ends well. -/
theorem of_undone {x : EStateM ε σ α} (undone : ∀ s e t, Raises x s e t → part t = part s)
    (upholds : Upholds part I x) : EndsUpheld part I x := by
  apply Leads.of_returns
  · intro s e t holds raised
    rw [undone s e t raised]
    exact holds
  · exact fun s a t holds run => upholds s a t run holds

theorem bind {x : EStateM ε σ α} {f : α → EStateM ε σ β} (first : EndsUpheld part I x)
    (second : ∀ a, EndsUpheld part I (f a)) : EndsUpheld part I (x >>= f) :=
  Leads.bind (P := fun s => I (part s)) (R := fun _ t => I (part t)) (fun _ _ holds => holds)
    (fun _ _ _ _ holds => holds) first fun _ a t _ holds => second a t holds

/-- The rest may use what a returning run of the first part has established. -/
theorem bind_of {P : α → σ → Prop} {x : EStateM ε σ α} {f : α → EStateM ε σ β}
    (first : EndsUpheld part I x)
    (returns : ∀ s a t, I (part s) → Runs x s a t → P a t)
    (second : ∀ a t, P a t → I (part t) → I (part (finalState (f a) t))) :
    EndsUpheld part I (x >>= f) := by
  intro s holds
  have kept := first s holds
  rcases finalState_bind x f s with ⟨a, run, eq⟩ | eq
  · rw [eq]
    exact second a _ (returns s a _ holds run) kept
  · rw [eq]
    exact kept

end EndsUpheld

end Relational
