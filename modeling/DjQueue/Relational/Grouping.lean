import Mathlib.Data.List.Perm.Basic
import Mathlib.Data.List.Nodup

/-!
# Grouping in order of first appearance

What an insertion-ordered dictionary of lists holds after every element was appended to
the list of its key.
-/

namespace Relational

universe u v

variable {α : Type u} {κ : Type v} [DecidableEq κ]

/-- The distinct elements, each where it first appears. -/
def distinct : List κ → List κ
  | [] => []
  | k :: ks => k :: (distinct ks).filter (fun k' => k' ≠ k)

/-- The elements grouped by a key, the keys in the order they first occur. -/
def groupBy (key : α → κ) (l : List α) : List (κ × List α) :=
  (distinct (l.map key)).map (fun k => (k, l.filter (fun a => key a = k)))

theorem mem_distinct {k : κ} {ks : List κ} : k ∈ distinct ks ↔ k ∈ ks := by
  induction ks with
  | nil => rfl
  | cons k' ks ih =>
      simp only [distinct, List.mem_cons, List.mem_filter, ih, decide_eq_true_eq]
      by_cases same : k = k' <;> simp [same]

theorem distinct_nodup (ks : List κ) : (distinct ks).Nodup := by
  induction ks with
  | nil => exact List.nodup_nil
  | cons k ks ih =>
      refine List.nodup_cons.mpr ⟨?_, ih.filter _⟩
      simp only [List.mem_filter, decide_eq_true_eq, not_and]
      exact fun _ ne => ne rfl

/-- Removing one value before or after. -/
theorem distinct_filter_ne (k : κ) (ks : List κ) :
    distinct (ks.filter (fun k' => k' ≠ k)) = (distinct ks).filter (fun k' => k' ≠ k) := by
  induction ks with
  | nil => rfl
  | cons k' ks ih =>
      by_cases same : k' = k
      · subst same
        simpa [distinct] using ih
      · simp only [List.filter_cons, ne_eq, same, not_false_eq_true, decide_true, if_true, distinct]
        rw [ih, List.filter_filter, List.filter_filter]
        refine congrArg _ (List.filter_congr fun k'' _ => ?_)
        rw [Bool.and_comm]

/-- The first element's group comes first. -/
theorem groupBy_cons (key : α → κ) (a : α) (l : List α) :
    groupBy key (a :: l) = (key a, a :: l.filter (fun b => key b = key a)) ::
      groupBy key (l.filter (fun b => key b ≠ key a)) := by
  have keys : (l.filter (fun b => key b ≠ key a)).map key =
      (l.map key).filter (fun k => k ≠ key a) := by
    rw [List.filter_map]
    rfl
  unfold groupBy
  rw [keys, distinct_filter_ne, List.map_cons, distinct, List.map_cons, List.filter_cons,
    if_pos (decide_eq_true rfl)]
  refine congrArg _ (List.map_congr_left fun k mem => ?_)
  have ne : k ≠ key a := of_decide_eq_true (List.mem_filter.mp mem).2
  rw [List.filter_cons, if_neg (by simpa using Ne.symm ne), List.filter_filter]
  refine congrArg _ (List.filter_congr fun b _ => ?_)
  by_cases hit : key b = k
  · simp [hit, ne]
  · simp [hit]

/-- The groups of distinct keys hold the elements with one of these keys. -/
theorem flatMap_filter_perm (key : α → κ) (l : List α) :
    ∀ {ks : List κ}, ks.Nodup →
      (ks.flatMap (fun k => l.filter (fun a => key a = k))).Perm (l.filter (fun a => key a ∈ ks))
  | [], _ => by simp
  | k :: ks, nodup => by
      obtain ⟨fresh, nodup⟩ := List.nodup_cons.mp nodup
      have here : (l.filter (fun a => key a ∈ k :: ks)).filter (fun a => key a = k) =
          l.filter (fun a => key a = k) := by
        rw [List.filter_filter]
        refine List.filter_congr fun a _ => ?_
        by_cases same : key a = k <;> simp [same]
      have others : (l.filter (fun a => key a ∈ k :: ks)).filter (fun a => !(key a = k)) =
          l.filter (fun a => key a ∈ ks) := by
        rw [List.filter_filter]
        refine List.filter_congr fun a _ => ?_
        by_cases same : key a = k
        · simp [same, fresh]
        · simp [same]
      have split := List.filter_append_perm (fun a => decide (key a = k))
        (l.filter (fun a => key a ∈ k :: ks))
      rw [here, others] at split
      rw [List.flatMap_cons]
      exact ((flatMap_filter_perm key l nodup).append_left _).trans split

/-- Grouping loses nothing and adds nothing. -/
theorem groupBy_flatMap_perm (key : α → κ) (l : List α) :
    ((groupBy key l).flatMap Prod.snd).Perm l := by
  unfold groupBy
  rw [List.flatMap_map]
  refine (flatMap_filter_perm key l (distinct_nodup _)).trans ?_
  rw [List.filter_eq_self.mpr fun a mem => ?_]
  rw [decide_eq_true_eq, mem_distinct]
  exact List.mem_map_of_mem mem

/-- The elements of one key keep their order. -/
theorem filter_groupBy_flatMap (key : α → κ) (l : List α) (k : κ) :
    ((groupBy key l).flatMap Prod.snd).filter (fun a => key a = k) =
      l.filter (fun a => key a = k) := by
  have groups : ∀ ks : List κ, ks.Nodup →
      (ks.flatMap (fun k' => l.filter (fun a => key a = k'))).filter (fun a => key a = k) =
        if k ∈ ks then l.filter (fun a => key a = k) else [] := by
    intro ks
    induction ks with
    | nil => simp
    | cons k' ks ih =>
        intro nodup
        obtain ⟨fresh, nodup⟩ := List.nodup_cons.mp nodup
        rw [List.flatMap_cons, List.filter_append, ih nodup, List.filter_filter]
        by_cases same : k = k'
        · subst same
          simp [fresh]
        · have none : l.filter (fun a => decide (key a = k) && decide (key a = k')) = [] := by
            refine List.filter_eq_nil_iff.mpr fun a _ both => ?_
            simp only [Bool.and_eq_true, decide_eq_true_eq] at both
            exact same (both.1.symm.trans both.2)
          simp [none, same]
  unfold groupBy
  rw [List.flatMap_map, groups _ (distinct_nodup _)]
  split
  · rfl
  · rename_i absent
    rw [mem_distinct] at absent
    refine (List.filter_eq_nil_iff.mpr fun a mem hit => absent ?_).symm
    rw [← of_decide_eq_true hit]
    exact List.mem_map_of_mem mem

/-- An element of a group has the group's key. -/
theorem mem_of_mem_groupBy {key : α → κ} {l : List α} {g : κ × List α} (mem : g ∈ groupBy key l)
    {a : α} (here : a ∈ g.2) : a ∈ l ∧ key a = g.1 := by
  obtain ⟨k, -, rfl⟩ := List.mem_map.mp mem
  simpa using here

end Relational
