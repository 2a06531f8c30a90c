import Mathlib.Data.List.Forall2
import Mathlib.Data.List.Nodup
import Mathlib.Data.List.Sort
import Mathlib.Algebra.GroupWithZero.Nat

/-!
# Tables with an autoincrement key

Rows stand in insertion order; `nextId` is the key the next insertion takes, and it
never goes back, so that no key is used twice.
-/

namespace Relational

universe u

variable {ρ : Type u}

/-- A table: its rows in the order of insertion, and the next id. -/
@[ext] structure Table (ρ : Type u) where
  rows : List ρ
  nextId : Nat
deriving DecidableEq, Repr

namespace Table

/-- No row, ids from 1. -/
def empty : Table ρ := ⟨[], 1⟩

/-- A row inserted under the next id. -/
def insert (t : Table ρ) (mk : Nat → ρ) : Table ρ :=
  ⟨t.rows ++ [mk t.nextId], t.nextId + 1⟩

/-- `DELETE … WHERE` -/
def deleteWhere (t : Table ρ) (p : ρ → Bool) : Table ρ :=
  ⟨t.rows.filter (fun r => !p r), t.nextId⟩

/-- `UPDATE … WHERE` -/
def updateWhere (t : Table ρ) (p : ρ → Bool) (f : ρ → ρ) : Table ρ :=
  ⟨t.rows.map (fun r => if p r then f r else r), t.nextId⟩

@[simp] theorem rows_empty : (empty : Table ρ).rows = [] := rfl

@[simp] theorem rows_insert (t : Table ρ) (mk : Nat → ρ) :
    (t.insert mk).rows = t.rows ++ [mk t.nextId] := rfl

@[simp] theorem nextId_insert (t : Table ρ) (mk : Nat → ρ) :
    (t.insert mk).nextId = t.nextId + 1 := rfl

@[simp] theorem rows_deleteWhere (t : Table ρ) (p : ρ → Bool) :
    (t.deleteWhere p).rows = t.rows.filter (fun r => !p r) := rfl

@[simp] theorem nextId_deleteWhere (t : Table ρ) (p : ρ → Bool) :
    (t.deleteWhere p).nextId = t.nextId := rfl

@[simp] theorem rows_updateWhere (t : Table ρ) (p : ρ → Bool) (f : ρ → ρ) :
    (t.updateWhere p f).rows = t.rows.map (fun r => if p r then f r else r) := rfl

@[simp] theorem nextId_updateWhere (t : Table ρ) (p : ρ → Bool) (f : ρ → ρ) :
    (t.updateWhere p f).nextId = t.nextId := rfl

/-- Two updates of the same rows make one. -/
theorem updateWhere_updateWhere (t : Table ρ) {p : ρ → Bool} {f g : ρ → ρ}
    (keeps : ∀ r, p r = true → p (f r) = true) :
    (t.updateWhere p f).updateWhere p g = t.updateWhere p (g ∘ f) := by
  refine Table.ext ?_ rfl
  rw [rows_updateWhere, rows_updateWhere, rows_updateWhere, List.map_map]
  congr 1
  funext r
  rw [Function.comp_apply]
  cases hit : p r with
  | false => simp [hit]
  | true => simp [keeps r hit]

/-- Updates of different rows commute. -/
theorem updateWhere_comm (t : Table ρ) {p q : ρ → Bool} {f g : ρ → ρ}
    (apart : ∀ r, p r = true → q r = false) (keepsQ : ∀ r, q (f r) = q r)
    (keepsP : ∀ r, p (g r) = p r) :
    (t.updateWhere p f).updateWhere q g = (t.updateWhere q g).updateWhere p f := by
  refine Table.ext ?_ rfl
  simp only [rows_updateWhere]
  rw [List.map_map, List.map_map]
  congr 1
  funext r
  rw [Function.comp_apply, Function.comp_apply]
  cases first : p r with
  | false =>
      cases second : q r with
      | false => simp [first, second]
      | true => simp [first, second, keepsP]
  | true => simp [first, apart r first, keepsQ]

/-- An update and an insertion that it does not touch commute. -/
theorem updateWhere_insert (t : Table ρ) {p : ρ → Bool} {f : ρ → ρ} {mk : Nat → ρ}
    (out : p (mk t.nextId) = false) :
    (t.insert mk).updateWhere p f = (t.updateWhere p f).insert mk := by
  refine Table.ext ?_ rfl
  simp [out]

/-- Updates that do the same to the rows they reach. -/
theorem updateWhere_congr (t : Table ρ) {p : ρ → Bool} {f g : ρ → ρ}
    (same : ∀ r ∈ t.rows, p r = true → f r = g r) : t.updateWhere p f = t.updateWhere p g := by
  refine Table.ext ?_ rfl
  rw [rows_updateWhere, rows_updateWhere]
  apply List.map_congr_left
  intro r mem
  cases hit : p r with
  | false => rfl
  | true => exact same r mem hit

theorem updateWhere_eq_self (t : Table ρ) {p : ρ → Bool} {f : ρ → ρ}
    (same : ∀ r ∈ t.rows, p r = true → f r = r) : t.updateWhere p f = t := by
  refine Table.ext ?_ rfl
  rw [rows_updateWhere]
  refine (List.map_congr_left fun r mem => ?_).trans (List.map_id _)
  cases hit : p r with
  | false => rfl
  | true => exact same r mem hit

/-! What a write leaves of a selection. -/

theorem filter_insert (t : Table ρ) {mk : Nat → ρ} {q : ρ → Bool} (out : q (mk t.nextId) = false) :
    (t.insert mk).rows.filter q = t.rows.filter q := by
  rw [rows_insert, List.filter_append]
  simp [out]

theorem deleteWhere_eq_self (t : Table ρ) {p : ρ → Bool} (none : ∀ r ∈ t.rows, p r = false) :
    t.deleteWhere p = t := by
  refine Table.ext ?_ rfl
  rw [rows_deleteWhere]
  apply List.filter_eq_self.mpr
  intro r mem
  rw [none r mem]
  rfl

theorem filter_deleteWhere (t : Table ρ) {p q : ρ → Bool}
    (out : ∀ r ∈ t.rows, p r = true → q r = false) :
    (t.deleteWhere p).rows.filter q = t.rows.filter q := by
  rw [rows_deleteWhere, List.filter_filter]
  refine List.filter_congr fun r mem => ?_
  cases hit : p r with
  | false => simp
  | true => simp [out r mem hit]

theorem filter_updateWhere (t : Table ρ) {p q : ρ → Bool} {f : ρ → ρ}
    (out : ∀ r ∈ t.rows, p r = true → q r = false ∧ q (f r) = false) :
    (t.updateWhere p f).rows.filter q = t.rows.filter q := by
  rw [rows_updateWhere, List.filter_map]
  have same : t.rows.filter (q ∘ fun r => if p r then f r else r) = t.rows.filter q := by
    refine List.filter_congr fun r mem => ?_
    rw [Function.comp_apply]
    split
    · rename_i hit
      rw [(out r mem hit).1, (out r mem hit).2]
    · rfl
  rw [same]
  refine (List.map_congr_left fun r mem => ?_).trans (List.map_id _)
  obtain ⟨there, inside⟩ := List.mem_filter.mp mem
  refine if_neg fun hit => ?_
  rw [(out r there hit).1] at inside
  cases inside

end Table

/-! ### Two tables row by row -/

section Forall₂

variable {τ : Type u} {R : ρ → ρ → Prop} {S : ρ → τ → Prop} {rows rows' : List ρ} {r r' : ρ}

theorem exists_of_mem_left {results : List τ} (each : List.Forall₂ S rows results) (mem : r ∈ rows) :
    ∃ r' ∈ results, S r r' := by
  induction each with
  | nil => cases mem
  | @cons a b rest rest' first others ih =>
      rcases List.mem_cons.mp mem with rfl | mem
      · exact ⟨b, List.mem_cons_self, first⟩
      · rcases ih mem with ⟨r', mem', related⟩
        exact ⟨r', List.mem_cons_of_mem _ mem', related⟩

theorem exists_of_mem_right {results : List τ} {t : τ} (each : List.Forall₂ S rows results)
    (mem : t ∈ results) : ∃ r ∈ rows, S r t := by
  induction each with
  | nil => cases mem
  | @cons a b rest rest' first others ih =>
      rcases List.mem_cons.mp mem with rfl | mem
      · exact ⟨a, List.mem_cons_self, first⟩
      · rcases ih mem with ⟨r, mem', related⟩
        exact ⟨r, List.mem_cons_of_mem _ mem', related⟩

/-- A filter that the relation respects, on rows it leaves alone. -/
theorem filter_eq_of_forall₂ {p : ρ → Bool} (each : List.Forall₂ R rows rows')
    (same : ∀ r ∈ rows, ∀ r', R r r' → p r' = p r ∧ (p r = true → r' = r)) :
    rows'.filter p = rows.filter p := by
  induction each with
  | nil => rfl
  | @cons a b rest rest' first others ih =>
      have tail := ih fun r mem => same r (List.mem_cons_of_mem _ mem)
      rcases same a List.mem_cons_self b first with ⟨agree, kept⟩
      cases hit : p a with
      | true => rw [kept hit, List.filter_cons_of_pos hit, List.filter_cons_of_pos hit, tail]
      | false =>
          rw [List.filter_cons_of_neg (by rw [agree, hit]; exact Bool.false_ne_true),
            List.filter_cons_of_neg (by rw [hit]; exact Bool.false_ne_true), tail]

end Forall₂

/-- Looking a row up by a unique key finds it. -/
theorem find?_of_unique {κ : Type u} [BEq κ] [LawfulBEq κ] {key : ρ → κ} {rows : List ρ}
    (unique : (rows.map key).Nodup) {r : ρ} (mem : r ∈ rows) :
    rows.find? (fun r' => key r' == key r) = some r := by
  cases found : rows.find? (fun r' => key r' == key r) with
  | none => exact absurd (List.find?_eq_none.mp found r mem) (by simp)
  | some r' =>
      have hit := List.find?_some found
      exact congrArg some (List.inj_on_of_nodup_map unique (List.mem_of_find?_eq_some found) mem
        (beq_iff_eq.mp hit))

/-- `ORDER BY`: a stable sort by a decidable comparison. -/
def orderBy (le : ρ → ρ → Bool) (rows : List ρ) : List ρ :=
  rows.insertionSort (fun a b => le a b)

theorem orderBy_perm (le : ρ → ρ → Bool) (rows : List ρ) : (orderBy le rows).Perm rows :=
  List.perm_insertionSort _ rows

@[simp] theorem mem_orderBy {le : ρ → ρ → Bool} {rows : List ρ} {r : ρ} :
    r ∈ orderBy le rows ↔ r ∈ rows :=
  (orderBy_perm le rows).mem_iff

theorem pairwise_orderBy (le : ρ → ρ → Bool) (trans : ∀ a b c, le a b → le b c → le a c)
    (total : ∀ a b, le a b ∨ le b a) (rows : List ρ) :
    (orderBy le rows).Pairwise (fun a b => le a b) := by
  have : IsTrans ρ (fun a b => le a b) := ⟨trans⟩
  have : Std.Total (fun a b => (le a b : Prop)) := ⟨total⟩
  exact List.pairwise_insertionSort _ rows

end Relational
