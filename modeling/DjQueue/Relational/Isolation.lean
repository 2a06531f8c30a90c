import Mathlib.Data.List.Induction
import DjQueue.Relational.Session

/-!
# Loops that stop where an item raises

`eachOf f l` runs `f` on one item after the other and gathers what they return; an exception ends it.
Beside it stands the same loop with every item on its own, `leftBy`, where an exception ends only the
item that raised it.  Up to the first item that raises the two agree.
-/

namespace Relational

universe u

variable {ε σ : Type u} {α β : Type u}

/-- A list's elements treated in turn, the results concatenated; the first raise ends it. -/
def eachOf (f : α → EStateM ε σ (List β)) : List α → EStateM ε σ (List β)
  | [] => pure []
  | a :: rest => do
      let first ← f a
      let others ← eachOf f rest
      pure (first ++ others)

/-- The state the items leave, each run on its own. -/
def leftBy (f : α → EStateM ε σ β) (s : σ) (l : List α) : σ :=
  l.foldl (fun s a => finalState (f a) s) s

/-- An item that raises where the ones before it, each on its own, leave it. -/
def RaisesAt (f : α → EStateM ε σ β) (s : σ) (before : List α) (a : α) : Prop :=
  returned (f a) (leftBy f s before) = none

section Loops

variable {f : α → EStateM ε σ (List β)} {s : σ}

@[simp] theorem leftBy_nil : leftBy f s [] = s := rfl

@[simp] theorem leftBy_cons (a : α) (l : List α) :
    leftBy f s (a :: l) = leftBy f (finalState (f a) s) l := rfl

theorem leftBy_append (l l' : List α) : leftBy f s (l ++ l') = leftBy f (leftBy f s l) l' :=
  List.foldl_append

/-- What every item keeps the whole list keeps. -/
theorem leftBy_rel {R : σ → σ → Prop} {P : σ → Prop} (refl : ∀ s, P s → R s s)
    (trans : ∀ s t u, R s t → R t u → R s u) (keeps : ∀ s t, R s t → P t) :
    ∀ {l : List α} {s : σ}, (∀ a ∈ l, Leads P R (f a)) → P s → R s (leftBy f s l)
  | [], s, _, start => refl s start
  | a :: l, s, each, start => by
      have first := each a List.mem_cons_self s start
      have others : R (finalState (f a) s) (leftBy f (finalState (f a) s) l) :=
        leftBy_rel refl trans keeps (fun b mem => each b (List.mem_cons_of_mem _ mem))
          (keeps _ _ first)
      exact trans _ _ _ first others

theorem finalState_eachOf_of_raises {a : α} (raises : returned (f a) s = none) (l : List α) :
    finalState (eachOf f (a :: l)) s = finalState (f a) s := by
  rcases finalState_bind (f a) (fun first => do
    let others ← eachOf f l
    pure (first ++ others)) s with ⟨b, run, -⟩ | eq
  · rw [run.returned_eq] at raises
    cases raises
  · exact eq

theorem finalState_eachOf_of_returns {a : α} (returns : returned (f a) s ≠ none) (l : List α) :
    finalState (eachOf f (a :: l)) s = finalState (eachOf f l) (finalState (f a) s) := by
  rcases runs_or_raises (f a) s with ⟨first, run, -⟩ | ⟨e, -, raised⟩
  · have goesOn : finalState (eachOf f (a :: l)) s = finalState (do
        let others ← eachOf f l
        pure (first ++ others)) (finalState (f a) s) := run.finalState_bind _
    rw [goesOn]
    exact finalState_bind_pure _ _ _
  · exact absurd raised returns

/-- The loop goes as far as the items on their own, if none of these raises. -/
theorem finalState_eachOf_append :
    ∀ {before : List α} {s : σ} (after : List α),
      (∀ b a c, before = b ++ a :: c → ¬ RaisesAt f s b a) →
      finalState (eachOf f (before ++ after)) s = finalState (eachOf f after) (leftBy f s before)
  | [], _, _, _ => rfl
  | a :: before, s, after, quiet => by
      have returns : returned (f a) s ≠ none := quiet [] a before rfl
      rw [List.cons_append, finalState_eachOf_of_returns returns]
      apply finalState_eachOf_append after
      intro b a' c split
      exact quiet (a :: b) a' c (by rw [split, List.cons_append])

/-- It stops behind the first item that raises. -/
theorem finalState_eachOf_first {before after : List α} {a : α}
    (quiet : ∀ b a' c, before = b ++ a' :: c → ¬ RaisesAt f s b a') (raises : RaisesAt f s before a) :
    finalState (eachOf f (before ++ a :: after)) s = leftBy f s (before ++ [a]) := by
  rw [finalState_eachOf_append _ quiet, finalState_eachOf_of_raises raises, leftBy_append]
  rfl

/-- Some item raises on its own, or none does; if one does there is a first one. -/
theorem exists_first_raise (f : α → EStateM ε σ (List β)) (s : σ) (l : List α) :
    (∀ b a c, l = b ++ a :: c → ¬ RaisesAt f s b a) ∨
      ∃ b a c, l = b ++ a :: c ∧ RaisesAt f s b a ∧
        ∀ b' a' c', b = b' ++ a' :: c' → ¬ RaisesAt f s b' a' := by
  induction l using List.reverseRecOn with
  | nil =>
      apply Or.inl
      intro b a c split
      cases b <;> cases split
  | append_singleton l a ih =>
      rcases ih with quiet | ⟨b, a', c, split, raises, first⟩
      · by_cases raises : RaisesAt f s l a
        · exact .inr ⟨l, a, [], rfl, raises, quiet⟩
        · apply Or.inl
          intro b a' c split
          rcases List.eq_nil_or_concat c with rfl | ⟨c', z, rfl⟩
          · rcases List.append_inj' split rfl with ⟨rfl, same⟩
            cases same
            exact raises
          · have split : l ++ [a] = (b ++ a' :: c') ++ [z] := by
              rw [split, List.append_assoc, List.cons_append, List.concat_eq_append]
            exact quiet b a' c' (List.append_inj' split rfl).1
      · exact .inr ⟨b, a', c ++ [a], by rw [split, List.append_assoc, List.cons_append], raises,
          first⟩

/-- Wherever it stops, it has run some first items on their own. -/
theorem exists_leftBy_eachOf (f : α → EStateM ε σ (List β)) :
    ∀ (l : List α) (s : σ), ∃ done, done <+: l ∧ finalState (eachOf f l) s = leftBy f s done
  | [], _ => ⟨[], List.prefix_rfl, rfl⟩
  | a :: l, s => by
      by_cases raises : returned (f a) s = none
      · exact ⟨[a], ⟨l, rfl⟩, finalState_eachOf_of_raises raises l⟩
      · rcases exists_leftBy_eachOf f l (finalState (f a) s) with ⟨done, first, stops⟩
        refine ⟨a :: done, (List.prefix_cons_inj a).mpr first, ?_⟩
        rw [finalState_eachOf_of_returns raises, stops, leftBy_cons]

/-- It comes past an item that does not raise on its own, or stops at one before it. -/
theorem finalState_eachOf_past {before : List α} {a : α} (after : List α)
    (well : ¬ RaisesAt f s before a) :
    ((∀ b a' c, before = b ++ a' :: c → ¬ RaisesAt f s b a') ∧ ∃ done, done <+: after ∧
        finalState (eachOf f (before ++ a :: after)) s = leftBy f s (before ++ a :: done)) ∨
      ∃ b a' c, before = b ++ a' :: c ∧ RaisesAt f s b a' ∧
        finalState (eachOf f (before ++ a :: after)) s = leftBy f s (b ++ [a']) := by
  rcases exists_first_raise f s before with quiet | ⟨b, a', c, rfl, raises, first⟩
  · rcases exists_leftBy_eachOf f after (finalState (f a) (leftBy f s before)) with
      ⟨done, inside, stops⟩
    refine .inl ⟨quiet, done, inside, ?_⟩
    rw [finalState_eachOf_append _ quiet, finalState_eachOf_of_returns well, stops, leftBy_append,
      leftBy_cons]
  · refine .inr ⟨b, a', c, rfl, raises, ?_⟩
    rw [List.append_assoc, List.cons_append, finalState_eachOf_first first raises]

end Loops

end Relational
