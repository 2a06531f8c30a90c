import Mathlib.Data.List.Forall2
import Mathlib.Logic.Relation

/-!
# Sessions and transactions

A session is a computation over a state that may raise.  The state survives a
raise, so that a caller who catches the exception goes on from where the callee
stopped; `atomic` is the combinator that undoes a raising body.

`Runs x s a t` says that `x` started in `s` returns `a` in `t`.  A proof walks a
`do` block by peeling one bind at a time (`Runs.of_bind`), and crosses a loop with
one invariant indexed by what is still to be processed (`Runs.forM`).
-/

namespace Relational

universe u

variable {ε σ : Type u} {α β γ : Type u}

/-- `x`, started in `s`, returns `a` in the state `t`. -/
def Runs (x : EStateM ε σ α) (s : σ) (a : α) (t : σ) : Prop :=
  x s = .ok a t

/-- `x`, started in `s`, raises `e` in the state `t`. -/
def Raises (x : EStateM ε σ α) (s : σ) (e : ε) (t : σ) : Prop :=
  x s = .error e t

/-- `x`, started in `s`, raises `e`. -/
def Fails (x : EStateM ε σ α) (s : σ) (e : ε) : Prop := ∃ t, Raises x s e t

/-- The state a session ends in, whether it returned or raised. -/
def finalState (x : EStateM ε σ α) (s : σ) : σ :=
  match x s with
  | .ok _ t => t
  | .error _ t => t

/-- What a session returns, unless it raises. -/
def returned (x : EStateM ε σ α) (s : σ) : Option α :=
  match x s with
  | .ok a _ => some a
  | .error _ _ => none

/-- Run `x`; when it raises, go back to what `undo` makes of the start and end states. -/
def atomic (undo : σ → σ → σ) (x : EStateM ε σ α) : EStateM ε σ α := fun s =>
  match x s with
  | .ok a t => .ok a t
  | .error e t => .error e (undo s t)

/-- Run `x` when the condition holds, else do nothing. -/
def runIf (c : Bool) (x : EStateM ε σ PUnit) : EStateM ε σ PUnit :=
  if c then x else pure ⟨⟩

/-- A sequence that returned: both parts did. -/
theorem Runs.of_bind {x : EStateM ε σ α} {f : α → EStateM ε σ β} {s t : σ} {b : β}
    (run : Runs (x >>= f) s b t) :
    ∃ a m, Runs x s a m ∧ Runs (f a) m b t := by
  simp only [Runs, bind, EStateM.bind] at run ⊢
  cases first : x s with
  | ok a m =>
      rw [first] at run
      exact ⟨a, m, rfl, run⟩
  | error e m =>
      rw [first] at run
      cases run

/-- A sequence of two parts that return. -/
theorem Runs.bind {x : EStateM ε σ α} {f : α → EStateM ε σ β} {s m t : σ} {a : α} {b : β}
    (first : Runs x s a m) (second : Runs (f a) m b t) : Runs (x >>= f) s b t := by
  simp only [Runs, Bind.bind, EStateM.bind] at first second ⊢
  rw [first]
  exact second

theorem runs_pure (a : α) (s : σ) : Runs (pure a : EStateM ε σ α) s a s := rfl

theorem runs_ofExcept {x : Except ε α} {a : α} (ok : x = .ok a) (s : σ) :
    Runs (MonadExcept.ofExcept x : EStateM ε σ α) s a s := by
  rw [ok]
  rfl

theorem runs_atomic {undo : σ → σ → σ} {x : EStateM ε σ α} {s t : σ} {a : α}
    (body : Runs x s a t) : Runs (atomic undo x) s a t := by
  simp only [Runs, Relational.atomic] at body ⊢
  rw [body]

theorem Raises.bind {x : EStateM ε σ α} {f : α → EStateM ε σ β} {s t : σ} {e : ε}
    (first : Raises x s e t) : Raises (x >>= f) s e t := by
  simp only [Raises, Bind.bind, EStateM.bind] at first ⊢
  rw [first]

theorem Runs.bind_raises {x : EStateM ε σ α} {f : α → EStateM ε σ β} {s m t : σ} {a : α} {e : ε}
    (first : Runs x s a m) (second : Raises (f a) m e t) : Raises (x >>= f) s e t := by
  simp only [Runs, Raises, Bind.bind, EStateM.bind] at first second ⊢
  rw [first]
  exact second

/-- Failing, which leaves the state as it was, ends the sequence. -/
theorem Fails.bind {x : EStateM ε σ α} {f : α → EStateM ε σ β} {s : σ} {e : ε}
    (first : Fails x s e) : Fails (x >>= f) s e :=
  first.imp fun _ raised => raised.bind

/-- Failing in the second part, after a first that changed nothing. -/
theorem Runs.bind_fails {x : EStateM ε σ α} {f : α → EStateM ε σ β} {s m : σ} {a : α} {e : ε}
    (first : Runs x s a m) (second : Fails (f a) m e) : Fails (x >>= f) s e :=
  second.imp fun _ raised => first.bind_raises raised

theorem Fails.of_throw (s : σ) (e : ε) : Fails (throw e : EStateM ε σ α) s e := ⟨s, rfl⟩

/-- A body that fails where the condition holds. -/
theorem Fails.of_runIf {c : Bool} {x : EStateM ε σ PUnit} {s : σ} {e : ε} (holds : c = true)
    (body : Fails x s e) : Fails (runIf c x) s e := by
  rw [holds]
  exact body

theorem Fails.atomic {undo : σ → σ → σ} {x : EStateM ε σ α} {s : σ} {e : ε}
    (body : Fails x s e) : ∃ t, Raises (atomic undo x) s e (undo s t) := by
  obtain ⟨t, body⟩ := body
  refine ⟨t, ?_⟩
  simp only [Raises, Relational.atomic] at body ⊢
  rw [body]

/-- A raise of an atomic block is a raise of its body, undone. -/
theorem Raises.of_atomic {undo : σ → σ → σ} {x : EStateM ε σ α} {s t : σ} {e : ε}
    (raised : Raises (Relational.atomic undo x) s e t) :
    ∃ m, Raises x s e m ∧ t = undo s m := by
  simp only [Raises, Relational.atomic] at raised ⊢
  cases body : x s with
  | ok a m =>
      rw [body] at raised
      cases raised
  | error e' m =>
      rw [body] at raised
      cases raised
      exact ⟨m, rfl, rfl⟩

theorem runs_tryCatch {x : EStateM ε σ α} {s t : σ} {a : α} (handle : ε → EStateM ε σ α)
    (body : Runs x s a t) : Runs (tryCatch x handle) s a t := by
  simp only [Runs, tryCatch, tryCatchThe, MonadExceptOf.tryCatch, EStateM.tryCatch] at body ⊢
  rw [body]

/-- What was raised is handled where it was raised. -/
theorem Raises.runs_tryCatch {x : EStateM ε σ α} {handle : ε → EStateM ε σ α} {s m t : σ} {e : ε}
    {a : α} (body : Raises x s e m) (handled : Runs (handle e) m a t) :
    Runs (tryCatch x handle) s a t := by
  simp only [Runs, Raises, tryCatch, tryCatchThe, MonadExceptOf.tryCatch, EStateM.tryCatch] at *
  rw [body]
  exact handled

/-- A sequence that raised: one of its parts did. -/
theorem Raises.of_bind {x : EStateM ε σ α} {f : α → EStateM ε σ β} {s t : σ} {e : ε}
    (raised : Raises (x >>= f) s e t) :
    Raises x s e t ∨ ∃ a m, Runs x s a m ∧ Raises (f a) m e t := by
  simp only [Raises, Runs, Bind.bind, EStateM.bind] at raised ⊢
  cases first : x s with
  | ok a m =>
      rw [first] at raised
      exact .inr ⟨a, m, rfl, raised⟩
  | error e' m =>
      rw [first] at raised
      cases raised
      exact .inl rfl

theorem Runs.of_pure {a b : α} {s t : σ} (run : Runs (pure a : EStateM ε σ α) s b t) :
    b = a ∧ t = s := by
  cases run
  exact ⟨rfl, rfl⟩

theorem Runs.of_map {f : α → β} {x : EStateM ε σ α} {s t : σ} {b : β}
    (run : Runs (f <$> x) s b t) : ∃ a, Runs x s a t ∧ b = f a := by
  simp only [Runs, Functor.map, EStateM.map] at run ⊢
  cases first : x s with
  | ok a m =>
      rw [first] at run
      cases run
      exact ⟨a, rfl, rfl⟩
  | error e m =>
      rw [first] at run
      cases run

theorem Runs.of_throw {e : ε} {s t : σ} {a : α} (run : Runs (throw e : EStateM ε σ α) s a t) :
    False := by
  cases run

/-- A given result that returned was one. -/
theorem Runs.of_ofExcept {x : Except ε α} {s t : σ} {a : α}
    (run : Runs (MonadExcept.ofExcept x : EStateM ε σ α) s a t) : x = .ok a ∧ t = s := by
  cases x with
  | ok b =>
      cases run
      exact ⟨rfl, rfl⟩
  | error e => cases run

/-- A conditional that returned: its body did, or was skipped. -/
theorem Runs.of_runIf {c : Bool} {x : EStateM ε σ PUnit} {s t : σ} {u : PUnit}
    (run : Runs (runIf c x) s u t) : (c = true ∧ Runs x s u t) ∨ (c = false ∧ t = s) := by
  cases c with
  | true => exact .inl ⟨rfl, run⟩
  | false => exact .inr ⟨rfl, (Runs.of_pure run).2⟩

/-- An atomic block that returned is its body. -/
theorem Runs.of_atomic {undo : σ → σ → σ} {x : EStateM ε σ α} {s t : σ} {a : α}
    (run : Runs (atomic undo x) s a t) : Runs x s a t := by
  simp only [Runs, atomic] at run ⊢
  cases body : x s with
  | ok b m =>
      rw [body] at run
      exact run
  | error e m =>
      rw [body] at run
      cases run

/-- A handler: the body returned, or raised and the handler returned. -/
theorem Runs.of_tryCatch {x : EStateM ε σ α} {handle : ε → EStateM ε σ α} {s t : σ} {a : α}
    (run : Runs (tryCatch x handle) s a t) :
    Runs x s a t ∨ ∃ e m, Raises x s e m ∧ Runs (handle e) m a t := by
  simp only [Runs, Raises, tryCatch, tryCatchThe, MonadExceptOf.tryCatch, EStateM.tryCatch]
    at run ⊢
  cases first : x s with
  | ok b m =>
      rw [first] at run
      exact .inl run
  | error e m =>
      rw [first] at run
      exact .inr ⟨e, m, rfl, run⟩

/-- A map raises what its argument raises. -/
theorem Raises.of_map {f : α → β} {x : EStateM ε σ α} {s t : σ} {e : ε}
    (raised : Raises (f <$> x) s e t) : Raises x s e t := by
  simp only [Raises, Functor.map, EStateM.map] at raised ⊢
  cases first : x s with
  | ok a m =>
      rw [first] at raised
      cases raised
  | error e' m =>
      rw [first] at raised
      cases raised
      rfl

/-- The final state of a run that returned. -/
theorem Runs.finalState_eq {x : EStateM ε σ α} {s t : σ} {a : α} (run : Runs x s a t) :
    finalState x s = t := by
  simp only [finalState, show x s = .ok a t from run]

theorem Raises.finalState_eq {x : EStateM ε σ α} {s t : σ} {e : ε} (raised : Raises x s e t) :
    finalState x s = t := by
  simp only [finalState, show x s = .error e t from raised]

theorem Runs.returned_eq {x : EStateM ε σ α} {s t : σ} {a : α} (run : Runs x s a t) :
    returned x s = some a := by
  simp only [returned, show x s = .ok a t from run]

theorem runs_of_returned {x : EStateM ε σ α} {s : σ} {a : α} (result : returned x s = some a) :
    Runs x s a (finalState x s) := by
  unfold returned at result
  unfold Runs finalState
  cases ran : x s with
  | ok b t =>
      rw [ran] at result
      cases result
      rfl
  | error e t =>
      rw [ran] at result
      cases result

/-- A session returns or raises. -/
theorem runs_or_raises (x : EStateM ε σ α) (s : σ) :
    (∃ a, Runs x s a (finalState x s) ∧ returned x s = some a) ∨
      ∃ e, Raises x s e (finalState x s) ∧ returned x s = none := by
  unfold Runs Raises finalState returned
  cases x s with
  | ok a t => exact .inl ⟨a, rfl, rfl⟩
  | error e t => exact .inr ⟨e, rfl, rfl⟩

/-- The second part runs from where the first one stopped, unless that raised. -/
theorem finalState_bind (x : EStateM ε σ α) (f : α → EStateM ε σ β) (s : σ) :
    (∃ a, Runs x s a (finalState x s) ∧
      finalState (x >>= f) s = finalState (f a) (finalState x s)) ∨
      finalState (x >>= f) s = finalState x s := by
  simp only [Runs, finalState, Bind.bind, EStateM.bind]
  cases x s with
  | ok a t => exact .inl ⟨a, rfl, rfl⟩
  | error e t => exact .inr rfl

/-- The final state of a sequence is that of its second part. -/
theorem Runs.finalState_bind {x : EStateM ε σ α} {s m : σ} {a : α} (run : Runs x s a m)
    (f : α → EStateM ε σ β) : finalState (x >>= f) s = finalState (f a) m := by
  simp only [finalState, Bind.bind, EStateM.bind, show x s = .ok a m from run]

/-- Building on the value leaves the final state. -/
theorem finalState_bind_pure (x : EStateM ε σ α) (f : α → β) (s : σ) :
    finalState (x >>= fun a => pure (f a)) s = finalState x s := by
  simp only [finalState, Bind.bind, EStateM.bind]
  cases x s with
  | ok a t => rfl
  | error e t => rfl

/-- A loop: `I` is indexed by the elements still to be processed. -/
theorem Runs.forM {f : α → EStateM ε σ PUnit} (I : List α → σ → Prop)
    (step : ∀ a rest s u t, I (a :: rest) s → Runs (f a) s u t → I rest t) :
    ∀ {l : List α} {s t : σ} {u : PUnit}, I l s → Runs (l.forM f) s u t → I [] t
  | [], s, t, u, start, run => by
      cases run
      exact start
  | a :: rest, s, t, u, start, run => by
      obtain ⟨v, m, head, tail⟩ := Runs.of_bind run
      exact Runs.forM I step (step a rest s v m start head) tail

/-- A loop each of whose steps returns returns. -/
theorem runs_forM {f : α → EStateM ε σ PUnit} (I : List α → σ → Prop)
    (step : ∀ a rest s, I (a :: rest) s → ∃ t, Runs (f a) s ⟨⟩ t ∧ I rest t) :
    ∀ {l : List α} {s : σ}, I l s → ∃ t, Runs (l.forM f) s ⟨⟩ t ∧ I [] t
  | [], s, start => ⟨s, runs_pure _ _, start⟩
  | a :: rest, s, start => by
      rcases step a rest s start with ⟨m, head, middle⟩
      rcases runs_forM I step middle with ⟨t, tail, final⟩
      exact ⟨t, Runs.bind head tail, final⟩

/-- A computation without a state, over a list: each result comes from its element. -/
theorem forall₂_of_mapM_ok {f : α → Except ε β} :
    ∀ {l : List α} {results : List β}, l.mapM f = .ok results →
      List.Forall₂ (fun a b => f a = .ok b) l results
  | [], results, run => by
      cases run
      exact .nil
  | a :: l, results, run => by
      rw [List.mapM_cons] at run
      cases first : f a with
      | error e =>
          rw [first] at run
          cases run
      | ok b =>
          rw [first] at run
          cases others : l.mapM f with
          | error e =>
              rw [others] at run
              cases run
          | ok bs =>
              rw [others] at run
              cases run
              exact .cons first (forall₂_of_mapM_ok others)

/-- Every element is worked on without a raise. -/
theorem mapM_eq_ok {f : α → Except ε β} {g : α → β} :
    ∀ {l : List α}, (∀ a ∈ l, f a = .ok (g a)) → l.mapM f = .ok (l.map g)
  | [], _ => rfl
  | a :: l, all => by
      rw [List.mapM_cons, all a List.mem_cons_self,
        mapM_eq_ok fun b mem => all b (List.mem_cons_of_mem a mem)]
      rfl

/-! ## Where a session ends -/

/-- Started where `P` holds, the session ends in a related state, however it ends. -/
def Leads (P : σ → Prop) (R : σ → σ → Prop) (x : EStateM ε σ α) : Prop :=
  ∀ s, P s → R s (finalState x s)

section Leads

variable {P : σ → Prop} {R : σ → σ → Prop}

/-- The second part is looked at where the first one returned. -/
theorem Leads.bind (keeps : ∀ s t, R s t → P t) (trans : ∀ s t u, R s t → R t u → R s u)
    {x : EStateM ε σ α} {f : α → EStateM ε σ β} (first : Leads P R x)
    (second : ∀ s a t, Runs x s a t → P t → R t (finalState (f a) t)) : Leads P R (x >>= f) := by
  intro s holds
  have kept := first s holds
  rcases finalState_bind x f s with ⟨a, run, eq⟩ | eq
  · rw [eq]
    exact trans _ _ _ kept (second _ _ _ run (keeps _ _ kept))
  · rw [eq]
    exact kept

/-- A session that undoes what it did when it raises: only the runs that return matter. -/
theorem Leads.of_returns {x : EStateM ε σ α} (raises : ∀ s e t, P s → Raises x s e t → R s t)
    (returns : ∀ s a t, P s → Runs x s a t → R s t) : Leads P R x := by
  intro s holds
  rcases runs_or_raises x s with ⟨a, run, -⟩ | ⟨e, raised, -⟩
  · exact returns _ _ _ holds run
  · exact raises _ _ _ holds raised

end Leads

/-! ## What every returning run keeps -/

/-- Every returning run of `x` leads from a state to one related to it. -/
def Relates (R : σ → σ → Prop) (x : EStateM ε σ α) : Prop :=
  ∀ s a t, Runs x s a t → R s t

section Relates

variable {R : σ → σ → Prop}

/-- Returning relates a state to itself. -/
theorem Relates.pure (refl : ∀ s, R s s) (a : α) : Relates R (Pure.pure a : EStateM ε σ α) := by
  intro s b t run
  rw [(Runs.of_pure run).2]
  exact refl s

/-- A throw returns nothing to relate. -/
theorem Relates.throw (e : ε) : Relates R (throw e : EStateM ε σ α) :=
  fun _ _ _ run => (Runs.of_throw run).elim

/-- Sequences, for a transitive relation. -/
theorem Relates.bind (trans : ∀ s t u, R s t → R t u → R s u) {x : EStateM ε σ α}
    {f : α → EStateM ε σ β} (first : Relates R x) (second : ∀ a, Relates R (f a)) :
    Relates R (x >>= f) := by
  intro s b t run
  obtain ⟨a, m, head, tail⟩ := Runs.of_bind run
  exact trans _ _ _ (first _ _ _ head) (second a _ _ _ tail)

theorem Relates.ofExcept (refl : ∀ s, R s s) (x : Except ε α) :
    Relates R (MonadExcept.ofExcept x : EStateM ε σ α) := by
  intro s a t run
  rw [(Runs.of_ofExcept run).2]
  exact refl s

theorem Relates.runIf (refl : ∀ s, R s s) (c : Bool) {x : EStateM ε σ PUnit}
    (body : Relates R x) : Relates R (runIf c x) := by
  intro s a t run
  rcases Runs.of_runIf run with ⟨-, run⟩ | ⟨-, rfl⟩
  · exact body _ _ _ run
  · exact refl _

theorem Relates.atomic {undo : σ → σ → σ} {x : EStateM ε σ α} (body : Relates R x) :
    Relates R (atomic undo x) :=
  fun _ _ _ run => body _ _ _ (Runs.of_atomic run)

theorem Relates.forM (refl : ∀ s, R s s) (trans : ∀ s t u, R s t → R t u → R s u)
    {f : α → EStateM ε σ PUnit} (body : ∀ a, Relates R (f a)) :
    ∀ l : List α, Relates R (l.forM f)
  | [] => Relates.pure refl _
  | a :: l => Relates.bind trans (body a) (fun _ => Relates.forM refl trans body l)

end Relates

end Relational
