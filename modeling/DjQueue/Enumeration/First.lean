import Mathlib.Data.List.Pairwise
import Mathlib.Data.List.Range

/-!
# The first hit of a search that may fail

`firstOver f xs` visits `xs` in order and stops at the first place where `f` finds something or
fails.  Nested loops are one loop over the flattened list, and over an ordered list the hit is the
least one.
-/

namespace Enumeration

universe u v w

variable {ε : Type u} {α : Type v} {β : Type w}

/-- The first result of a list; an exception before it ends the search. -/
def firstOver (f : α → Except ε (Option β)) : List α → Except ε (Option β)
  | [] => .ok none
  | x :: xs =>
      match f x with
      | .ok none => firstOver f xs
      | .ok (some y) => .ok (some y)
      | .error e => .error e

variable {f : α → Except ε (Option β)} {xs : List α} {y : β}

/-- Nothing is found in an empty list. -/
@[simp] theorem firstOver_nil : firstOver f [] = .ok none := rfl

/-- One visit of the search. -/
theorem firstOver_cons (x : α) (xs : List α) :
    firstOver f (x :: xs) =
      match f x with
      | .ok none => firstOver f xs
      | .ok (some y) => .ok (some y)
      | .error e => .error e := rfl

/-- An item without a result is passed over. -/
theorem firstOver_cons_none {x : α} (h : f x = .ok none) :
    firstOver f (x :: xs) = firstOver f xs := by
  rw [firstOver_cons, h]

theorem firstOver_cons_some {x : α} (h : f x = .ok (some y)) :
    firstOver f (x :: xs) = .ok (some y) := by
  rw [firstOver_cons, h]

/-- The first exception ends the search. -/
theorem firstOver_cons_error {x : α} {e : ε} (h : f x = .error e) :
    firstOver f (x :: xs) = .error e := by
  rw [firstOver_cons, h]

/-- What a visit can come to. -/
theorem visit_cases (r : Except ε (Option β)) :
    r = .ok none ∨ (∃ y, r = .ok (some y)) ∨ ∃ e, r = .error e := by
  rcases r with e | _ | y
  · exact Or.inr (Or.inr ⟨e, rfl⟩)
  · exact Or.inl rfl
  · exact Or.inr (Or.inl ⟨y, rfl⟩)

/-- A list without a result is passed over. -/
theorem firstOver_append_none {ys : List α} (h : firstOver f xs = .ok none) :
    firstOver f (xs ++ ys) = firstOver f ys := by
  induction xs with
  | nil => rfl
  | cons x xs ih =>
      rcases visit_cases (f x) with hit | ⟨y, hit⟩ | ⟨e, hit⟩
      · rw [firstOver_cons_none hit] at h
        rw [List.cons_append, firstOver_cons_none hit, ih h]
      · rw [firstOver_cons_some hit] at h
        cases h
      · rw [firstOver_cons_error hit] at h
        cases h

/-- What ends the search in the first list ends it in both. -/
theorem firstOver_append_of_ne {ys : List α} (h : firstOver f xs ≠ .ok none) :
    firstOver f (xs ++ ys) = firstOver f xs := by
  induction xs with
  | nil => exact absurd rfl h
  | cons x xs ih =>
      rcases visit_cases (f x) with hit | ⟨y, hit⟩ | ⟨e, hit⟩
      · rw [firstOver_cons_none hit] at h
        rw [List.cons_append, firstOver_cons_none hit, firstOver_cons_none hit, ih h]
      · rw [List.cons_append, firstOver_cons_some hit, firstOver_cons_some hit]
      · rw [List.cons_append, firstOver_cons_error hit, firstOver_cons_error hit]

/-- A loop in a loop. -/
theorem firstOver_firstOver {γ : Type*} {g : α → Except ε (Option β)} {inner : γ → List α}
    (outer : List γ) :
    firstOver (fun x => firstOver g (inner x)) outer = firstOver g (outer.flatMap inner) := by
  induction outer with
  | nil => rfl
  | cons x outer ih =>
      rw [List.flatMap_cons]
      by_cases hit : firstOver g (inner x) = .ok none
      · rw [firstOver_append_none hit, ← ih]
        exact firstOver_cons_none hit
      · rw [firstOver_append_of_ne hit]
        rcases visit_cases (firstOver g (inner x)) with none | ⟨y, some⟩ | ⟨e, error⟩
        · exact absurd none hit
        · rw [some]
          exact firstOver_cons_some some
        · rw [error]
          exact firstOver_cons_error error

/-- A list of images is searched like the list. -/
theorem firstOver_map {γ : Type*} {g : γ → α} (zs : List γ) :
    firstOver f (zs.map g) = firstOver (fun z => f (g z)) zs := by
  induction zs with
  | nil => rfl
  | cons z zs ih =>
      rw [List.map_cons, firstOver_cons, firstOver_cons, ih]

/-- The search looks at the items only. -/
theorem firstOver_congr {g : α → Except ε (Option β)} (h : ∀ x ∈ xs, f x = g x) :
    firstOver f xs = firstOver g xs := by
  induction xs with
  | nil => rfl
  | cons x xs ih =>
      rw [firstOver_cons, firstOver_cons, h x List.mem_cons_self,
        ih (fun x' inside => h x' (List.mem_cons_of_mem _ inside))]

/-- Nothing is found exactly when no item has a result. -/
theorem firstOver_eq_none : firstOver f xs = .ok none ↔ ∀ x ∈ xs, f x = .ok none := by
  induction xs with
  | nil => simp
  | cons x xs ih =>
      rcases visit_cases (f x) with hit | ⟨y, hit⟩ | ⟨e, hit⟩
      · rw [firstOver_cons_none hit, ih]
        simp [hit]
      · rw [firstOver_cons_some hit]
        simp [hit]
      · rw [firstOver_cons_error hit]
        simp [hit]

/-- Everything before the hit was visited and gave nothing; what was not visited comes after it. -/
theorem of_firstOver_eq_some {R : α → α → Prop} (ordered : xs.Pairwise R)
    (h : firstOver f xs = .ok (some y)) :
    ∃ x ∈ xs, f x = .ok (some y) ∧ ∀ x' ∈ xs, f x' = .ok none ∨ x' = x ∨ R x x' := by
  induction xs with
  | nil => cases h
  | cons x xs ih =>
      rw [List.pairwise_cons] at ordered
      rcases visit_cases (f x) with hit | ⟨y', hit⟩ | ⟨e, hit⟩
      · rw [firstOver_cons_none hit] at h
        obtain ⟨x₀, inside, found, rest⟩ := ih ordered.2 h
        refine ⟨x₀, List.mem_cons_of_mem _ inside, found, ?_⟩
        intro x' mem
        rcases List.mem_cons.mp mem with rfl | later
        · exact Or.inl hit
        · exact rest x' later
      · rw [firstOver_cons_some hit] at h
        cases h
        refine ⟨x, List.mem_cons_self, hit, ?_⟩
        intro x' mem
        rcases List.mem_cons.mp mem with rfl | later
        · exact Or.inr (Or.inl rfl)
        · exact Or.inr (Or.inr (ordered.1 x' later))
      · rw [firstOver_cons_error hit] at h
        cases h

/-- A search whose visits all return, returns. -/
theorem firstOver_ok (h : ∀ x ∈ xs, ∃ r, f x = .ok r) : ∃ r, firstOver f xs = .ok r := by
  induction xs with
  | nil => exact ⟨none, rfl⟩
  | cons x xs ih =>
      obtain ⟨r, hit⟩ := h x List.mem_cons_self
      cases r with
      | none =>
          rw [firstOver_cons_none hit]
          exact ih (fun x' inside => h x' (List.mem_cons_of_mem _ inside))
      | some y => exact ⟨some y, firstOver_cons_some hit⟩

/-- A search whose visits fail with nothing but `e` fails with nothing but `e`. -/
theorem error_of_firstOver {bad : ε → Prop} (h : ∀ x ∈ xs, ∀ e, f x = .error e → bad e) {e : ε}
    (failed : firstOver f xs = .error e) : bad e := by
  induction xs with
  | nil => cases failed
  | cons x xs ih =>
      rcases visit_cases (f x) with hit | ⟨y, hit⟩ | ⟨e', hit⟩
      · rw [firstOver_cons_none hit] at failed
        exact ih (fun x' inside => h x' (List.mem_cons_of_mem _ inside)) failed
      · rw [firstOver_cons_some hit] at failed
        cases failed
      · rw [firstOver_cons_error hit] at failed
        cases failed
        exact h x List.mem_cons_self _ hit

/-- Leaving out visits that find nothing changes nothing, unless one of them is what the whole
search fails by. -/
theorem firstOver_filter {p : α → Bool} (bad : ε → Prop)
    (skipped : ∀ x ∈ xs, p x = false → f x = .ok none ∨ ∃ e, f x = .error e ∧ bad e)
    (clean : ∀ e, firstOver f xs = .error e → ¬ bad e) :
    firstOver f (xs.filter p) = firstOver f xs := by
  induction xs with
  | nil => rfl
  | cons x xs ih =>
      have later : ∀ x' ∈ xs, p x' = false → f x' = .ok none ∨ ∃ e, f x' = .error e ∧ bad e :=
        fun x' inside => skipped x' (List.mem_cons_of_mem _ inside)
      rcases visit_cases (f x) with hit | ⟨y, hit⟩ | ⟨e, hit⟩
      · rw [firstOver_cons_none hit] at clean ⊢
        cases keep : p x with
        | true => rw [List.filter_cons_of_pos keep, firstOver_cons_none hit, ih later clean]
        | false => rw [List.filter_cons_of_neg (by simp [keep]), ih later clean]
      · cases keep : p x with
        | true => rw [List.filter_cons_of_pos keep, firstOver_cons_some hit, firstOver_cons_some hit]
        | false =>
            rcases skipped x List.mem_cons_self keep with none | ⟨e, error, -⟩
            · rw [hit] at none
              cases none
            · rw [hit] at error
              cases error
      · rw [firstOver_cons_error hit] at clean ⊢
        cases keep : p x with
        | true => rw [List.filter_cons_of_pos keep, firstOver_cons_error hit]
        | false =>
            rcases skipped x List.mem_cons_self keep with none | ⟨e', error, isBad⟩
            · rw [hit] at none
              cases none
            · rw [hit] at error
              cases error
              exact absurd isBad (clean e rfl)

/-! ## Walking from place to place -/

/-- Visits `x`, `next x`, ..., `n` places at most, and steps on after the last of them too. -/
def walk (f : α → Except ε (Option β)) (next : α → Except ε α) : Nat → α → Except ε (Option β)
  | 0, _ => .ok none
  | n + 1, x =>
      match f x with
      | .ok none =>
          match next x with
          | .ok x' => walk f next n x'
          | .error e => .error e
      | .ok (some y) => .ok (some y)
      | .error e => .error e

variable {next : α → Except ε α} {place : Nat → α}

/-- One place of a walk. -/
theorem walk_succ (n : Nat) (x : α) :
    walk f next (n + 1) x =
      match f x with
      | .ok none =>
          match next x with
          | .ok x' => walk f next n x'
          | .error e => .error e
      | .ok (some y) => .ok (some y)
      | .error e => .error e := rfl

/-- A walk that returns has searched the places on its way. -/
theorem firstOver_of_walk (way : ∀ k x, next (place k) = .ok x → x = place (k + 1)) {n i : Nat}
    {r : Option β} (h : walk f next n (place i) = .ok r) :
    firstOver (fun k => f (place k)) (List.range' i n) = .ok r := by
  induction n generalizing i with
  | zero => exact h
  | succ n ih =>
      rw [walk_succ] at h
      rw [List.range'_succ]
      rcases visit_cases (f (place i)) with hit | ⟨y, hit⟩ | ⟨e, hit⟩
      · rw [hit] at h
        dsimp only at h
        cases step : next (place i) with
        | error e =>
            rw [step] at h
            cases h
        | ok x =>
            rw [step] at h
            rw [firstOver_cons_none (f := fun k => f (place k)) hit]
            exact ih (way i x step ▸ h)
      · rw [hit] at h
        rw [firstOver_cons_some (f := fun k => f (place k)) hit]
        exact h
      · rw [hit] at h
        cases h

/-- A walk that is never stopped is the search over its places. -/
theorem walk_eq_firstOver {n i : Nat} (way : ∀ k, k < i + n → next (place k) = .ok (place (k + 1))) :
    walk f next n (place i) = firstOver (fun k => f (place k)) (List.range' i n) := by
  induction n generalizing i with
  | zero => rfl
  | succ n ih =>
      rw [walk_succ, List.range'_succ]
      rcases visit_cases (f (place i)) with hit | ⟨y, hit⟩ | ⟨e, hit⟩
      · rw [hit, firstOver_cons_none (f := fun k => f (place k)) hit, way i (by omega)]
        exact ih (fun k small => way k (by omega))
      · rw [hit, firstOver_cons_some (f := fun k => f (place k)) hit]
      · rw [hit, firstOver_cons_error (f := fun k => f (place k)) hit]

/-- A walk that returns, returns the same with visits that return the same. -/
theorem walk_congr {g : α → Except ε (Option β)} (h : ∀ x r, f x = .ok r → g x = .ok r) {n : Nat}
    {x : α} {r : Option β} (walked : walk f next n x = .ok r) : walk g next n x = .ok r := by
  induction n generalizing x with
  | zero => exact walked
  | succ n ih =>
      rw [walk_succ] at walked ⊢
      rcases visit_cases (f x) with hit | ⟨y, hit⟩ | ⟨e, hit⟩
      · rw [hit] at walked
        rw [h x _ hit]
        dsimp only at walked ⊢
        cases step : next x with
        | error e =>
            rw [step] at walked
            cases walked
        | ok x' =>
            rw [step] at walked
            exact ih walked
      · rw [hit] at walked
        rw [h x _ hit]
        exact walked
      · rw [hit] at walked
        cases walked

/-- The exceptions of a walk are those of its visits and of its steps. -/
theorem error_of_walk (bad : ε → Prop) (visits : ∀ x e, f x = .error e → bad e)
    (steps : ∀ x e, next x = .error e → bad e) {n : Nat} {x : α} {e : ε}
    (failed : walk f next n x = .error e) : bad e := by
  induction n generalizing x with
  | zero => cases failed
  | succ n ih =>
      rw [walk_succ] at failed
      rcases visit_cases (f x) with hit | ⟨y, hit⟩ | ⟨e', hit⟩
      · rw [hit] at failed
        dsimp only at failed
        cases step : next x with
        | error e' =>
            rw [step] at failed
            cases failed
            exact steps x _ step
        | ok x' =>
            rw [step] at failed
            exact ih failed
      · rw [hit] at failed
        cases failed
      · rw [hit] at failed
        cases failed
        exact visits x _ hit

end Enumeration
