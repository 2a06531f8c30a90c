import DjQueue.Relational.Session
import Mathlib.Data.Fintype.Card

/-!
# Chains and attempts

Two loops that must end.  `chainFrom` follows a pointer from item to item and stops where it comes
back to one it has seen; `attempts` runs a session again for as long as what it raised asks for it.
-/

namespace Relational

/-! ## Following a pointer -/

section Chain

variable {ι : Type} [DecidableEq ι]

/-- The items that `next` leads through, up to the first that was seen before. -/
def chainFrom (next : ι → Option ι) : Nat → List ι → Option ι → List ι
  | 0, _, _ => []
  | _ + 1, _, none => []
  | fuel + 1, seen, some i =>
      if i ∈ seen then [] else i :: chainFrom next fuel (i :: seen) (next i)

variable {next : ι → Option ι}

/-- The chain never returns to what was seen. -/
theorem chainFrom_fresh : ∀ {fuel : Nat} {seen : List ι} {start : Option ι},
    ∀ i ∈ chainFrom next fuel seen start, i ∉ seen
  | 0, _, _, _, mem => absurd mem List.not_mem_nil
  | _ + 1, _, none, _, mem => absurd mem List.not_mem_nil
  | fuel + 1, seen, some i, j, mem => by
      rw [chainFrom] at mem
      split at mem
      · exact absurd mem List.not_mem_nil
      · rename_i fresh
        rcases List.mem_cons.mp mem with rfl | later
        · exact fresh
        · exact fun old => chainFrom_fresh j later (List.mem_cons_of_mem _ old)

theorem chainFrom_nodup : ∀ {fuel : Nat} {seen : List ι} {start : Option ι},
    (chainFrom next fuel seen start).Nodup
  | 0, _, _ => List.nodup_nil
  | _ + 1, _, none => List.nodup_nil
  | fuel + 1, seen, some i => by
      rw [chainFrom]
      split
      · exact List.nodup_nil
      · apply List.nodup_cons.mpr
        exact ⟨fun again => chainFrom_fresh i again List.mem_cons_self, chainFrom_nodup⟩

/-- Every element is reached by following the chain. -/
theorem chainFrom_reached : ∀ {fuel : Nat} {seen : List ι} {i : ι},
    ∀ j ∈ chainFrom next fuel seen (some i), Relation.ReflTransGen (fun a b => next a = some b) i j
  | 0, _, _, _, mem => absurd mem List.not_mem_nil
  | fuel + 1, seen, i, j, mem => by
      rw [chainFrom] at mem
      split at mem
      · exact absurd mem List.not_mem_nil
      · rcases List.mem_cons.mp mem with rfl | later
        · exact .refl
        · cases leads : next i with
          | none =>
              rw [leads] at later
              cases fuel <;> exact absurd later List.not_mem_nil
          | some k =>
              rw [leads] at later
              exact .head leads (chainFrom_reached j later)

variable [Fintype ι]

/-- With a step for each item not seen yet, the walk covers its start and goes on wherever the
pointer leads. -/
theorem chainFrom_closed : ∀ (fuel : Nat) (seen : List ι) (start : Option ι), seen.Nodup →
    Fintype.card ι ≤ fuel + seen.length →
      (∀ i, start = some i → i ∈ seen ∨ i ∈ chainFrom next fuel seen start) ∧
      ∀ j ∈ chainFrom next fuel seen start, ∀ k, next j = some k →
        k ∈ seen ∨ k ∈ chainFrom next fuel seen start
  | 0, seen, start, nodup, enough => by
      have all : ∀ i, i ∈ seen := by
        intro i
        by_contra fresh
        have more := (List.nodup_cons.mpr ⟨fresh, nodup⟩).length_le_card
        rw [List.length_cons] at more
        omega
      exact ⟨fun i _ => .inl (all i), fun _ mem => absurd mem List.not_mem_nil⟩
  | fuel + 1, seen, none, _, _ => ⟨nofun, fun _ mem => absurd mem List.not_mem_nil⟩
  | fuel + 1, seen, some i, nodup, enough => by
      rw [chainFrom]
      split
      · rename_i old
        constructor
        · intro j same
          cases same
          exact .inl old
        · exact fun _ mem => absurd mem List.not_mem_nil
      · rename_i fresh
        have rest := chainFrom_closed fuel (i :: seen) (next i)
          (List.nodup_cons.mpr ⟨fresh, nodup⟩) (by rw [List.length_cons]; omega)
        have ahead : ∀ k, k ∈ i :: seen ∨ k ∈ chainFrom next fuel (i :: seen) (next i) →
            k ∈ seen ∨ k ∈ i :: chainFrom next fuel (i :: seen) (next i) := by
          intro k either
          rcases either with old | later
          · rcases List.mem_cons.mp old with rfl | older
            · exact .inr List.mem_cons_self
            · exact .inl older
          · exact .inr (List.mem_cons_of_mem _ later)
        constructor
        · intro j same
          cases same
          exact .inr List.mem_cons_self
        · intro j mem k leads
          apply ahead
          rcases List.mem_cons.mp mem with rfl | later
          · exact rest.1 k leads
          · exact rest.2 j later k leads

/-- The walk visits each item that the pointer leads to, once, also where it runs in circles. -/
theorem mem_chainFrom {i j : ι} :
    j ∈ chainFrom next (Fintype.card ι) [] (some i) ↔
      Relation.ReflTransGen (fun a b => next a = some b) i j := by
  have closed := @chainFrom_closed ι _ next _ (Fintype.card ι) [] (some i) List.nodup_nil
    (Nat.le_refl _)
  constructor
  · exact chainFrom_reached j
  · intro reached
    induction reached with
    | refl => exact (closed.1 i rfl).resolve_left List.not_mem_nil
    | tail _ leads ih => exact (closed.2 _ ih _ leads).resolve_left List.not_mem_nil

end Chain

/-! ## Running a session again -/

universe u

variable {ε σ α : Type u}

/-- The session, and up to `n` times the session again. -/
def attempts (again : ε → Bool) : Nat → EStateM ε σ α → EStateM ε σ α
  | 0, x => x
  | n + 1, x => fun s =>
      match x s with
      | .ok a t => .ok a t
      | .error e t => if again e then attempts again n x t else .error e t

section Steps

variable {again : ε → Bool} {x : EStateM ε σ α} {s t : σ}

theorem attempts_ok {a : α} (result : x s = .ok a t) (n : Nat) :
    attempts again n x s = .ok a t := by
  cases n with
  | zero => exact result
  | succ n => simp only [attempts, result]

/-- An error is tried again while attempts are left and the error is one of those. -/
theorem attempts_error {e : ε} (result : x s = .error e t) (n : Nat) :
    attempts again (n + 1) x s = if again e then attempts again n x t else .error e t := by
  simp only [attempts, result]

end Steps

/-- `k` attempts in a row have raised, and each asked for another. -/
inductive Tried (again : ε → Bool) (x : EStateM ε σ α) : Nat → σ → σ → Prop
  | start (s : σ) : Tried again x 0 s s
  | again {k : Nat} {s m t : σ} {e : ε} (raised : Raises x s e m) (asks : again e = true)
      (rest : Tried again x k m t) : Tried again x (k + 1) s t

/-- All attempts but the last have raised and asked for another; what the last one does is what
comes of them. -/
theorem attempts_outcome {again : ε → Bool} {x : EStateM ε σ α} : ∀ (n : Nat) (s : σ),
    ∃ k t, k ≤ n ∧ Tried again x k s t ∧ attempts again n x s = x t ∧
      (k < n → ∀ e m, Raises x t e m → again e = false)
  | 0, s => ⟨0, s, Nat.le_refl 0, .start s, rfl, fun less => absurd less (Nat.not_lt_zero 0)⟩
  | n + 1, s => by
      cases result : x s with
      | ok a t =>
          refine ⟨0, s, Nat.zero_le _, .start s, ?_, ?_⟩
          · exact (attempts_ok result _).trans result.symm
          · intro _ e m raised
            rw [Raises, result] at raised
            cases raised
      | error e m =>
          cases asks : again e with
          | true =>
              rcases attempts_outcome n m with ⟨k, t, le, tried, same, last⟩
              refine ⟨k + 1, t, Nat.succ_le_succ le, .again result asks tried, ?_, ?_⟩
              · rw [attempts_error result, if_pos asks]
                exact same
              · exact fun less => last (Nat.lt_of_succ_lt_succ less)
          | false =>
              refine ⟨0, s, Nat.zero_le _, .start s, ?_, ?_⟩
              · rw [attempts_error result, asks]
                exact result.symm
              · intro _ e' m' raised
                rw [Raises, result] at raised
                cases raised
                exact asks

end Relational
