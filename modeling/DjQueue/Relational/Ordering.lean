import DjQueue.Relational.Grouping
import DjQueue.Relational.Table

/-!
# Rows in order

`ORDER BY` and a `WHERE` do not disturb each other, and where no two rows compare alike the order
of the result does not depend on the order of the table. Rows may be ranked by the first of some
conditions that they meet: sorting by rank is taking one block of rows after another.
-/

namespace Relational

universe u v

variable {ρ : Type u} {le : ρ → ρ → Bool}

/-- A comparison that can sort: rows may compare alike. -/
structure Orders (le : ρ → ρ → Bool) : Prop where
  trans : ∀ a b c, le a b → le b c → le a c
  total : ∀ a b, le a b ∨ le b a

namespace Orders

theorem refl (orders : Orders le) (a : ρ) : le a a := by
  rcases orders.total a a with here | here <;> exact here

theorem pairwise (orders : Orders le) (rows : List ρ) :
    (orderBy le rows).Pairwise (fun a b => le a b) :=
  pairwise_orderBy le orders.trans orders.total rows

/-- A selection of sorted rows, with one more row put in. -/
theorem filter_orderedInsert (orders : Orders le) (p : ρ → Bool) (a : ρ) {rows : List ρ}
    (sorted : rows.Pairwise (fun b c => le b c)) :
    (rows.orderedInsert (fun b c => le b c) a).filter p =
      if p a then (rows.filter p).orderedInsert (fun b c => le b c) a else rows.filter p := by
  induction rows with
  | nil =>
      cases here : p a <;> simp [here]
  | cons b rows ih =>
      rcases List.pairwise_cons.mp sorted with ⟨first, sorted⟩
      by_cases before : (le a b : Prop)
      · rw [List.orderedInsert_cons_of_le _ rows before, List.filter_cons]
        cases here : p a with
        | false => simp
        | true =>
            rw [if_pos rfl, if_pos rfl]
            -- the new row comes before all of them, so also before those that are selected
            have least : ∀ c ∈ (b :: rows).filter p, le a c = true := by
              intro c mem
              rcases List.mem_cons.mp (List.mem_of_mem_filter mem) with rfl | later
              · exact before
              · exact orders.trans a b c before (first c later)
            cases selected : (b :: rows).filter p with
            | nil => rfl
            | cons c others =>
                rw [List.orderedInsert_cons_of_le]
                exact least c (by rw [selected]; exact List.mem_cons_self)
      · rw [List.orderedInsert_of_not_le _ rows before, List.filter_cons, ih sorted,
          List.filter_cons]
        cases other : p b with
        | false => simp
        | true =>
            rw [if_pos rfl, if_pos rfl]
            cases here : p a with
            | false => simp
            | true =>
                rw [if_pos rfl, if_pos rfl,
                  List.orderedInsert_of_not_le (fun b c => (le b c : Prop)) _ before]

/-- Selecting after sorting is sorting after selecting. -/
theorem filter_orderBy (orders : Orders le) (p : ρ → Bool) (rows : List ρ) :
    (orderBy le rows).filter p = orderBy le (rows.filter p) := by
  induction rows with
  | nil => rfl
  | cons a rows ih =>
      have cons (l : List ρ) :
          orderBy le (a :: l) = (orderBy le l).orderedInsert (fun b c => le b c) a := rfl
      rw [cons, orders.filter_orderedInsert p a (orders.pairwise rows), ih, List.filter_cons]
      split
      · rw [cons]
      · rfl

/-- Rows that are renamed without a change of order. -/
theorem orderBy_map {f : ρ → ρ} (same : ∀ a b, le (f a) (f b) = le a b) (rows : List ρ) :
    orderBy le (rows.map f) = (orderBy le rows).map f := by
  symm
  apply List.map_insertionSort
  intro a _ b _
  rw [same]

/-- Rows that are sorted already stay as they are. -/
theorem orderBy_of_pairwise {rows : List ρ} (sorted : rows.Pairwise (fun a b => le a b)) :
    orderBy le rows = rows :=
  List.Pairwise.insertionSort_eq sorted

/-- Where no two rows compare alike, a sorted list is what sorting its rows gives. -/
theorem eq_orderBy (orders : Orders le) {rows sorted : List ρ}
    (antisymm : ∀ a ∈ rows, ∀ b ∈ rows, le a b → le b a → a = b)
    (pairwise : sorted.Pairwise (fun a b => le a b)) (perm : sorted.Perm rows) :
    sorted = orderBy le rows := by
  apply List.Perm.eq_of_pairwise _ pairwise (orders.pairwise rows)
    (perm.trans (orderBy_perm le rows).symm)
  intro a b here there
  exact antisymm a (perm.mem_iff.mp here) b (mem_orderBy.mp there)

end Orders

/-! ## Ranked conditions -/

/-- The index of the first condition a row meets. -/
def firstMet (conds : List (ρ → Bool)) (r : ρ) : Nat := conds.findIdx (fun p => p r)

/-- The rows that meet some condition. -/
def meetsAny (conds : List (ρ → Bool)) (r : ρ) : Bool := conds.any (fun p => p r)

/-- By rank first, then by a comparison of the rows. -/
def rankedBy (rank : ρ → Nat) (le : ρ → ρ → Bool) (a b : ρ) : Bool :=
  rank a < rank b || (rank a == rank b && le a b)

/-- One sorted block for each condition, of the rows no earlier condition takes. -/
def blocks (le : ρ → ρ → Bool) : List (ρ → Bool) → List ρ → List ρ
  | [], _ => []
  | p :: conds, rows =>
      orderBy le (rows.filter p) ++ blocks le conds (rows.filter (fun r => !p r))

section Ranked

variable {p : ρ → Bool} {conds : List (ρ → Bool)} {rank : ρ → Nat}

/-- A row that meets the first condition. -/
theorem firstMet_cons_of_pos {r : ρ} (meets : p r = true) : firstMet (p :: conds) r = 0 := by
  simp [firstMet, List.findIdx_cons, meets]

theorem firstMet_cons_of_neg {r : ρ} (fails : p r = false) :
    firstMet (p :: conds) r = firstMet conds r + 1 := by
  simp [firstMet, List.findIdx_cons, fails]

theorem rankedBy_of_lt {a b : ρ} (before : rank a < rank b) : rankedBy rank le a b = true := by
  simp [rankedBy, before]

theorem rankedBy_of_eq {a b : ρ} (same : rank a = rank b) : rankedBy rank le a b = le a b := by
  simp [rankedBy, same]

theorem Orders.rankedBy (orders : Orders le) (rank : ρ → Nat) : Orders (rankedBy rank le) := by
  constructor
  · intro a b c
    simp only [Relational.rankedBy, Bool.or_eq_true, decide_eq_true_eq, Bool.and_eq_true,
      beq_iff_eq]
    rintro (first | ⟨first, le₁⟩) (second | ⟨second, le₂⟩)
    · exact .inl (by omega)
    · exact .inl (by omega)
    · exact .inl (by omega)
    · exact .inr ⟨by omega, orders.trans a b c le₁ le₂⟩
  · intro a b
    simp only [Relational.rankedBy, Bool.or_eq_true, decide_eq_true_eq, Bool.and_eq_true,
      beq_iff_eq]
    rcases Nat.lt_trichotomy (rank a) (rank b) with before | same | after
    · exact .inl (.inl before)
    · rcases orders.total a b with here | there
      · exact .inl (.inr ⟨same, here⟩)
      · exact .inr (.inr ⟨same.symm, there⟩)
    · exact .inr (.inl after)

/-- The order by ranks is antisymmetric where the order is. -/
theorem antisymm_rankedBy {rows : List ρ}
    (antisymm : ∀ a ∈ rows, ∀ b ∈ rows, le a b → le b a → a = b) :
    ∀ a ∈ rows, ∀ b ∈ rows, rankedBy rank le a b → rankedBy rank le b a → a = b := by
  intro a here b there
  simp only [rankedBy, Bool.or_eq_true, decide_eq_true_eq, Bool.and_eq_true, beq_iff_eq]
  rintro (first | ⟨first, le₁⟩) (second | ⟨second, le₂⟩)
  · omega
  · omega
  · omega
  · exact antisymm a here b there le₁ le₂

/-- The blocks are the rows that meet some condition. -/
theorem blocks_perm (le : ρ → ρ → Bool) : ∀ (conds : List (ρ → Bool)) (rows : List ρ),
    (blocks le conds rows).Perm (rows.filter (meetsAny conds))
  | [], rows => by
      have none : rows.filter (meetsAny []) = [] := List.filter_eq_nil_iff.mpr (by simp [meetsAny])
      rw [none]
      exact List.Perm.refl _
  | p :: conds, rows => by
      have here : (rows.filter (meetsAny (p :: conds))).filter p = rows.filter p := by
        rw [List.filter_filter]
        exact List.filter_congr fun r _ => by cases meets : p r <;> simp [meetsAny, meets]
      have later : (rows.filter (meetsAny (p :: conds))).filter (fun r => !p r) =
          (rows.filter (fun r => !p r)).filter (meetsAny conds) := by
        rw [List.filter_filter, List.filter_filter]
        exact List.filter_congr fun r _ => by cases meets : p r <;> simp [meetsAny, meets]
      have split := List.filter_append_perm p (rows.filter (meetsAny (p :: conds)))
      rw [here, later] at split
      exact ((orderBy_perm le _).append (blocks_perm le conds _)).trans split

theorem mem_blocks {rows : List ρ} {r : ρ} :
    r ∈ blocks le conds rows ↔ r ∈ rows ∧ meetsAny conds r = true :=
  (blocks_perm le conds rows).mem_iff.trans List.mem_filter

/-- The blocks one after the other are ordered by the first condition met. -/
theorem pairwise_blocks (orders : Orders le) : ∀ (conds : List (ρ → Bool)) (rows : List ρ),
    (blocks le conds rows).Pairwise (fun a b => rankedBy (firstMet conds) le a b)
  | [], _ => List.Pairwise.nil
  | p :: conds, rows => by
      have first : ∀ r ∈ orderBy le (rows.filter p), p r = true :=
        fun r mem => (List.mem_filter.mp (mem_orderBy.mp mem)).2
      have rest : ∀ r ∈ blocks le conds (rows.filter (fun r => !p r)), p r = false :=
        fun r mem => by simpa using (List.mem_filter.mp (mem_blocks.mp mem).1).2
      apply List.pairwise_append.mpr
      refine ⟨?_, ?_, ?_⟩
      · apply (orders.pairwise _).imp_of_mem
        intro a b here there before
        rw [rankedBy_of_eq (by
          rw [firstMet_cons_of_pos (first a here), firstMet_cons_of_pos (first b there)])]
        exact before
      · apply (pairwise_blocks orders conds _).imp_of_mem
        intro a b here there before
        simp only [rankedBy, firstMet_cons_of_neg (rest a here),
          firstMet_cons_of_neg (rest b there)] at before ⊢
        simpa using before
      · intro a here b there
        apply rankedBy_of_lt
        rw [firstMet_cons_of_pos (first a here), firstMet_cons_of_neg (rest b there)]
        exact Nat.succ_pos _

/-- Block by block is by rank, where no two rows compare alike. -/
theorem blocks_eq_orderBy (orders : Orders le) (conds : List (ρ → Bool)) {rows : List ρ}
    (antisymm : ∀ a ∈ rows, ∀ b ∈ rows, le a b → le b a → a = b) :
    blocks le conds rows =
      orderBy (rankedBy (firstMet conds) le) (rows.filter (meetsAny conds)) := by
  apply (orders.rankedBy (firstMet conds)).eq_orderBy _ (pairwise_blocks orders conds rows)
    (blocks_perm le conds rows)
  apply antisymm_rankedBy
  intro a here b there
  exact antisymm a (List.mem_of_mem_filter here) b (List.mem_of_mem_filter there)

/-- The last condition takes what the ones before it leave. -/
theorem blocks_concat (le : ρ → ρ → Bool) (q : ρ → Bool) : ∀ (conds : List (ρ → Bool))
    (rows : List ρ), blocks le (conds ++ [q]) rows =
      blocks le conds rows ++ orderBy le (rows.filter (fun r => !meetsAny conds r && q r))
  | [], rows => by simp [blocks, meetsAny]
  | p :: conds, rows => by
      have left : (rows.filter (fun r => !p r)).filter (fun r => !meetsAny conds r && q r) =
          rows.filter (fun r => !meetsAny (p :: conds) r && q r) := by
        rw [List.filter_filter]
        exact List.filter_congr fun r _ => by cases meets : p r <;> simp [meetsAny, meets]
      rw [List.cons_append, blocks, blocks, blocks_concat le q conds, left, List.append_assoc]

/-- Rows that no condition takes do not matter. -/
theorem blocks_filter (le : ρ → ρ → Bool) (q : ρ → Bool) : ∀ (conds : List (ρ → Bool))
    (rows : List ρ), (∀ p ∈ conds, ∀ r ∈ rows, p r = true → q r = true) →
    blocks le conds (rows.filter q) = blocks le conds rows
  | [], _, _ => rfl
  | p :: conds, rows, inside => by
      have here : (rows.filter q).filter p = rows.filter p := by
        rw [List.filter_filter]
        apply List.filter_congr
        intro r mem
        cases meets : p r with
        | false => rfl
        | true => rw [inside p List.mem_cons_self r mem meets]; rfl
      have swap : (rows.filter q).filter (fun r => !p r) =
          (rows.filter (fun r => !p r)).filter q := by
        rw [List.filter_filter, List.filter_filter]
        exact List.filter_congr fun r _ => Bool.and_comm _ _
      rw [blocks, blocks, here, swap, blocks_filter le q conds _ fun p' mem r there =>
        inside p' (List.mem_cons_of_mem _ mem) r (List.mem_of_mem_filter there)]

/-- Conditions that no row meets may be left out. -/
theorem blocks_skip {κ : Type v} (le : ρ → ρ → Bool) (cond : κ → ρ → Bool) (keep : κ → Bool) :
    ∀ (ks : List κ) (rows : List ρ),
      (∀ k ∈ ks, keep k = false → ∀ r ∈ rows, cond k r = false) →
      blocks le ((ks.filter keep).map cond) rows = blocks le (ks.map cond) rows
  | [], _, _ => rfl
  | k :: ks, rows, unmet => by
      have later := blocks_skip le cond keep ks (rows.filter (fun r => !cond k r))
        fun k' mem dropped r there =>
          unmet k' (List.mem_cons_of_mem _ mem) dropped r (List.mem_of_mem_filter there)
      cases kept : keep k with
      | true => rw [List.filter_cons_of_pos kept, List.map_cons, List.map_cons, blocks, blocks, later]
      | false =>
          have nobody := unmet k List.mem_cons_self kept
          have none : rows.filter (cond k) = [] :=
            List.filter_eq_nil_iff.mpr fun r mem => by simp [nobody r mem]
          have all : rows.filter (fun r => !cond k r) = rows :=
            List.filter_eq_self.mpr fun r mem => by simp [nobody r mem]
          rw [all] at later
          rw [List.filter_cons_of_neg (by simp [kept]), List.map_cons, blocks, none, all, later]
          rfl

/-- A condition takes nothing the second time. -/
theorem blocks_distinct {κ : Type v} [DecidableEq κ] (le : ρ → ρ → Bool) (cond : κ → ρ → Bool) :
    ∀ (ks : List κ) (rows : List ρ),
      blocks le ((distinct ks).map cond) rows = blocks le (ks.map cond) rows
  | [], _ => rfl
  | k :: ks, rows => by
      rw [distinct, List.map_cons, List.map_cons, blocks, blocks,
        blocks_skip le cond (fun k' => k' ≠ k), blocks_distinct le cond ks]
      intro k' _ again r mem
      rw [of_decide_eq_false again |> not_not.mp]
      simpa using (List.mem_filter.mp mem).2

end Ranked

end Relational
