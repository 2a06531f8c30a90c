import DjQueue.Relational.Grouping
import DjQueue.Relational.Table

/-!
# Groups merged into a dictionary

An insertion-ordered dictionary with a default for every key, into which the groups of several
lists are merged, each list writing a part of the values of its own.  What is written for a key is
what its group says; a list without the key writes nothing.
-/

namespace Relational

universe u v w

variable {κ : Type u} {ν : Type v} {α : Type w} [DecidableEq κ]

/-- `rows.setdefault(key, default)`, and what is then written to it. -/
def setDefault (default : κ → ν) (rows : List (κ × ν)) (key : κ) (set : ν → ν) : List (κ × ν) :=
  if key ∈ rows.map Prod.fst then
    rows.map (fun row => if row.1 = key then (row.1, set row.2) else row)
  else rows ++ [(key, set (default key))]

/-- The value of a key, or what it would start with. -/
def valueAt (default : κ → ν) (rows : List (κ × ν)) (key : κ) : ν :=
  (rows.lookup key).getD (default key)

/-- The groups merged into the rows, one after the other. -/
def mergeGroups (default : κ → ν) (set : List α → ν → ν) (rows : List (κ × ν))
    (groups : List (κ × List α)) : List (κ × ν) :=
  groups.foldl (fun rows group => setDefault default rows group.1 (set group.2)) rows

section Lookup

variable {default : κ → ν} {rows : List (κ × ν)} {key key' : κ}

/-- The first row decides, where it has the key. -/
theorem lookup_cons_ite (row : κ × ν) (rows : List (κ × ν)) :
    (row :: rows).lookup key = if key = row.1 then some row.2 else rows.lookup key := by
  rw [List.lookup_cons]
  by_cases same : key = row.1
  · rw [if_pos same, beq_iff_eq.mpr same]
  · rw [if_neg same, beq_eq_false_iff_ne.mpr same]

theorem lookup_eq_none_iff : rows.lookup key = none ↔ key ∉ rows.map Prod.fst := by
  induction rows with
  | nil => simp
  | cons row rows ih =>
      by_cases same : key = row.1
      · subst same
        simp
      · rw [lookup_cons_ite, if_neg same, List.map_cons, List.mem_cons, ih]
        simp [same]

/-- A row added under a key of its own. -/
theorem lookup_append_singleton (absent : key' ∉ rows.map Prod.fst) (value : ν) :
    (rows ++ [(key', value)]).lookup key =
      if key = key' then some value else rows.lookup key := by
  induction rows with
  | nil => by_cases same : key = key' <;> simp [lookup_cons_ite, same]
  | cons row rows ih =>
      rw [List.map_cons, List.mem_cons, not_or] at absent
      rw [List.cons_append, lookup_cons_ite, lookup_cons_ite, ih absent.2]
      by_cases here : key = row.1
      · have other : key ≠ key' := fun same => absent.1 (same.symm.trans here)
        simp [← here, other]
      · simp [here]

theorem lookup_map_set (set : ν → ν) :
    (rows.map (fun row => if row.1 = key' then (row.1, set row.2) else row)).lookup key =
      if key = key' then (rows.lookup key).map set else rows.lookup key := by
  induction rows with
  | nil => simp
  | cons row rows ih =>
      have fst : (if row.1 = key' then (row.1, set row.2) else row).1 = row.1 := by
        split <;> rfl
      rw [List.map_cons, lookup_cons_ite, lookup_cons_ite, fst, ih]
      by_cases here : key = row.1
      · by_cases there : key = key'
        · simp [← here, there]
        · simp [← here, there]
      · simp [here]

/-- The value of a key is set, starting from the default where it has none. -/
theorem lookup_setDefault (set : ν → ν) :
    (setDefault default rows key' set).lookup key =
      if key = key' then some (set (valueAt default rows key')) else rows.lookup key := by
  unfold setDefault valueAt
  by_cases there : key' ∈ rows.map Prod.fst
  · rw [if_pos there, lookup_map_set]
    by_cases same : key = key'
    · subst same
      cases found : rows.lookup key with
      | none => exact absurd there (lookup_eq_none_iff.mp found)
      | some value => simp
    · rw [if_neg same, if_neg same]
  · rw [if_neg there, lookup_append_singleton there, lookup_eq_none_iff.mpr there]
    rfl

theorem keys_setDefault (set : ν → ν) :
    (setDefault default rows key' set).map Prod.fst =
      if key' ∈ rows.map Prod.fst then rows.map Prod.fst else rows.map Prod.fst ++ [key'] := by
  have same (row : κ × ν) : (if row.1 = key' then (row.1, set row.2) else row).1 = row.1 := by
    split <;> rfl
  unfold setDefault
  split
  · rw [List.map_map]
    exact List.map_congr_left fun row _ => same row
  · rw [List.map_append, List.map_singleton]

theorem keys_setDefault_nodup (set : ν → ν) (nodup : (rows.map Prod.fst).Nodup) :
    ((setDefault default rows key' set).map Prod.fst).Nodup := by
  rw [keys_setDefault]
  split
  · exact nodup
  · rename_i absent
    exact List.nodup_append.mpr ⟨nodup, List.nodup_singleton _, fun a mem b mem' same =>
      absent (List.mem_singleton.mp mem' ▸ same ▸ mem)⟩

end Lookup

section Merging

variable {default : κ → ν} {set : List α → ν → ν} {key : κ}

theorem keys_mergeGroups_nodup : ∀ (groups : List (κ × List α)) {rows : List (κ × ν)},
    (rows.map Prod.fst).Nodup → ((mergeGroups default set rows groups).map Prod.fst).Nodup
  | [], _, nodup => nodup
  | _ :: groups, _, nodup => keys_mergeGroups_nodup groups (keys_setDefault_nodup _ nodup)

/-- The keys are those of the rows and those of the groups. -/
theorem mem_keys_mergeGroups : ∀ (groups : List (κ × List α)) {rows : List (κ × ν)},
    key ∈ (mergeGroups default set rows groups).map Prod.fst ↔
      key ∈ rows.map Prod.fst ∨ key ∈ groups.map Prod.fst
  | [], _ => by simp [mergeGroups]
  | group :: groups, rows => by
      have written : key ∈ (setDefault default rows group.1 (set group.2)).map Prod.fst ↔
          key ∈ rows.map Prod.fst ∨ key = group.1 := by
        rw [keys_setDefault]
        split
        · rename_i there
          constructor
          · exact .inl
          · intro either
            rcases either with old | new
            · exact old
            · exact new ▸ there
        · simp
      have rest : key ∈ (mergeGroups default set (setDefault default rows group.1 (set group.2))
          groups).map Prod.fst ↔ _ := mem_keys_mergeGroups groups
      rw [mergeGroups, List.foldl_cons, ← mergeGroups, rest, written, List.map_cons,
        List.mem_cons, or_assoc]

/-- Each group writes the value of its key once. -/
theorem lookup_mergeGroups : ∀ {groups : List (κ × List α)} (rows : List (κ × ν)),
    (groups.map Prod.fst).Nodup → (mergeGroups default set rows groups).lookup key =
      match groups.lookup key with
      | some group => some (set group (valueAt default rows key))
      | none => rows.lookup key
  | [], _, _ => rfl
  | (key', group) :: groups, rows, nodup => by
      rcases List.nodup_cons.mp nodup with ⟨fresh, nodup⟩
      rw [mergeGroups, List.foldl_cons, ← mergeGroups, lookup_mergeGroups _ nodup, valueAt,
        lookup_setDefault, lookup_cons_ite]
      by_cases same : key = key'
      · subst same
        rw [lookup_eq_none_iff.mpr fresh]
        simp
      · rw [if_neg same, if_neg same]
        rfl

theorem lookup_groupBy (keyOf : α → κ) (l : List α) :
    (groupBy keyOf l).lookup key =
      if key ∈ l.map keyOf then some (l.filter (fun a => keyOf a = key)) else none := by
  have pick : ∀ keys : List κ,
      (keys.map (fun k => (k, l.filter (fun a => keyOf a = k)))).lookup key =
        if key ∈ keys then some (l.filter (fun a => keyOf a = key)) else none := by
    intro keys
    induction keys with
    | nil => rfl
    | cons k keys ih =>
        rw [List.map_cons, lookup_cons_ite, ih]
        by_cases same : key = k
        · subst same
          simp
        · simp [same]
  rw [groupBy, pick]
  exact if_congr mem_distinct rfl rfl

theorem keys_groupBy (keyOf : α → κ) (l : List α) :
    (groupBy keyOf l).map Prod.fst = distinct (l.map keyOf) := by
  rw [groupBy, List.map_map]
  exact List.map_id _

/-- What a list writes for a key is what its elements with the key say. -/
theorem valueAt_mergeGroups {rows : List (κ × ν)} {keyOf : α → κ} {l : List α}
    (idle : set [] (valueAt default rows key) = valueAt default rows key) :
    valueAt default (mergeGroups default set rows (groupBy keyOf l)) key =
      set (l.filter (fun a => keyOf a = key)) (valueAt default rows key) := by
  have nodup : ((groupBy keyOf l).map Prod.fst).Nodup := by
    rw [keys_groupBy]
    exact distinct_nodup _
  rw [valueAt, lookup_mergeGroups rows nodup, lookup_groupBy]
  split
  · rename_i group found
    split at found
    · cases found
      rfl
    · cases found
  · rename_i found
    split at found
    · cases found
    · rename_i absent
      have none : l.filter (fun a => keyOf a = key) = [] := by
        apply List.filter_eq_nil_iff.mpr
        intro a mem hit
        exact absent (List.mem_map.mpr ⟨a, mem, of_decide_eq_true hit⟩)
      rw [none, idle, valueAt]

end Merging

/-- Looking up does not depend on the order of the rows. -/
theorem lookup_perm {rows rows' : List (κ × ν)} (perm : rows.Perm rows')
    (nodup : (rows.map Prod.fst).Nodup) (key : κ) : rows.lookup key = rows'.lookup key := by
  induction perm with
  | nil => rfl
  | cons row _ ih =>
      rcases List.nodup_cons.mp nodup with ⟨-, nodup⟩
      rw [lookup_cons_ite, lookup_cons_ite, ih nodup]
  | swap row row' rows =>
      rw [List.map_cons, List.map_cons, List.nodup_cons, List.mem_cons, not_or] at nodup
      rw [lookup_cons_ite, lookup_cons_ite, lookup_cons_ite, lookup_cons_ite]
      by_cases here : key = row.1
      · have other : key ≠ row'.1 := fun same => nodup.1.1 (same.symm.trans here)
        simp [← here, other]
      · simp [here]
  | trans first _ ih ih' =>
      rw [ih nodup, ih' ((first.map Prod.fst).nodup_iff.mp nodup)]

end Relational
