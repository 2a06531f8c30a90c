import DjQueue.Accounting.Rows

/-!
# Selecting rows and taking them

Every transition selects rows of one state table together with their jobs and deletes what
it selected.  A session that runs alone takes all of them: `_consume_selected_rows` returns
what it was given, on databases that lock rows and on those that do not.
-/

namespace DjQueue

open Relational

/-- A join drops the rows whose job is missing. -/
theorem selectRelatedJob_fst_sublist (db : Db) {m : StateModel} (l : List m.Row) :
    ((selectRelatedJob db l).map Prod.fst).Sublist l := by
  unfold selectRelatedJob
  induction l with
  | nil => exact List.Sublist.refl _
  | cons r l ih =>
      cases found : db.findJob (rowJobId r) with
      | none => simpa [found] using ih.cons r
      | some j => simpa [found] using ih

/-- A row is joined with the job of its key. -/
theorem mem_selectRelatedJob {db : Db} {m : StateModel} {l : List m.Row} {r : m.Row × Job} :
    r ∈ selectRelatedJob db l ↔ r.1 ∈ l ∧ db.findJob (rowJobId r.1) = some r.2 := by
  unfold selectRelatedJob
  rw [List.mem_filterMap]
  constructor
  · rintro ⟨row, inList, pair⟩
    rcases Option.map_eq_some_iff.mp pair with ⟨j, found, rfl⟩
    exact ⟨inList, found⟩
  · rintro ⟨inList, found⟩
    exact ⟨r.1, inList, by rw [found]; rfl⟩

/-- Loading the jobs keeps the order of the rows. -/
theorem pairwise_selectRelatedJob {db : Db} {m : StateModel} {R : m.Row → m.Row → Prop}
    {rows : List m.Row}
    (sorted : rows.Pairwise R) :
    (selectRelatedJob db rows).Pairwise (fun x y => R x.1 y.1) := by
  unfold selectRelatedJob
  rw [List.pairwise_filterMap]
  refine sorted.imp fun {r s} holds x loaded y loaded' => ?_
  obtain ⟨j, -, rfl⟩ := Option.map_eq_some_iff.mp loaded
  obtain ⟨j', -, rfl⟩ := Option.map_eq_some_iff.mp loaded'
  exact holds

/-- Distinct rows of a state table, each with its job. -/
structure Selected (db : Db) {m : StateModel} (rows : List (m.Row × Job)) : Prop where
  mem : ∀ r ∈ rows, r.1 ∈ (db.table m).rows
  job : ∀ r ∈ rows, db.findJob (rowJobId r.1) = some r.2
  nodup : (rows.map (fun r => rowId r.1)).Nodup

namespace Selected

variable {db : Db} {m : StateModel} {rows rows' : List (m.Row × Job)}

theorem sublist (selected : Selected db rows) (fewer : rows'.Sublist rows) : Selected db rows' where
  mem r mem := selected.mem r (fewer.subset mem)
  job r mem := selected.job r (fewer.subset mem)
  nodup := selected.nodup.sublist (fewer.map _)

/-- A selection outlives what happens elsewhere. -/
theorem of_same {db' : Db} (selected : Selected db rows) (table : db'.table m = db.table m)
    (jobs : db'.jobs = db.jobs) : Selected db' rows where
  mem r mem := by
    rw [table]
    exact selected.mem r mem
  job r mem := by
    rw [Db.findJob, jobs]
    exact selected.job r mem
  nodup := selected.nodup

/-- The job of a row has the key the row names. -/
theorem id_eq (selected : Selected db rows) {r : m.Row × Job} (mem : r ∈ rows) :
    r.2.id = rowJobId r.1 := (mem_of_findJob (selected.job r mem)).2

theorem ids_eq (selected : Selected db rows) :
    rows.map (fun r => rowJobId r.1) = rows.map (fun r => r.2.id) :=
  List.map_congr_left fun _ mem => (selected.id_eq mem).symm

/-- `select_related("job")` over distinct rows of the table. -/
theorem of_selectRelatedJob {l : List m.Row} (there : ∀ r ∈ l, r ∈ (db.table m).rows)
    (nodup : (l.map rowId).Nodup) : Selected db (selectRelatedJob db l) := by
  have related : ∀ r ∈ selectRelatedJob db l, r.1 ∈ l ∧ db.findJob (rowJobId r.1) = some r.2 := by
    intro r mem
    obtain ⟨row, inList, pair⟩ := List.mem_filterMap.mp mem
    obtain ⟨j, found, rfl⟩ := Option.map_eq_some_iff.mp pair
    exact ⟨inList, found⟩
  refine ⟨fun r mem => there r.1 (related r mem).1, fun r mem => (related r mem).2, ?_⟩
  have rows := nodup.sublist ((selectRelatedJob_fst_sublist db l).map rowId)
  rwa [List.map_map] at rows

end Selected

/-- The rows of a table in some order, or part of them. -/
theorem Accounts.selected_orderBy {a : Audit} {hand : List JobId} {owed : Nat} {db : Db}
    (good : Accounts a hand owed db) (m : StateModel) (p : m.Row → Bool)
    (le : m.Row → m.Row → Bool) :
    Selected db (selectRelatedJob db (orderBy le ((db.table m).rows.filter p))) := by
  refine Selected.of_selectRelatedJob ?_ ?_
  · intro r mem
    exact List.mem_of_mem_filter (mem_orderBy.mp mem)
  · have nodup := (good.rowIds m).sublist ((List.filter_sublist (p := p)).map rowId)
    exact ((orderBy_perm le _).map rowId).nodup_iff.mpr nodup

/-! ## Deleting -/

namespace Db

theorem setTable_setTable (db : Db) (m : StateModel) (t t' : Table m.Row) :
    (db.setTable m t).setTable m t' = db.setTable m t' := by
  cases m <;> rfl

/-- Writing a table back changes nothing. -/
theorem setTable_table (db : Db) (m : StateModel) : db.setTable m (db.table m) = db := by
  cases m <;> rfl

end Db

section Consume

variable {m : StateModel} {β : Type} {pk : β → Nat} {w w' : World}

theorem of_run_deleteRowsWhere {p : m.Row → Bool} {n : Nat}
    (run : Runs (deleteRowsWhere m p) w n w') :
    n = (w.db.table m).rows.countP p ∧
      w'.db = w.db.setTable m ((w.db.table m).deleteWhere p) := by
  obtain ⟨db, w₁, read, rest⟩ := Runs.of_bind run
  obtain ⟨rfl, rfl⟩ := of_run_getDb read
  obtain ⟨u, w₂, written, rest⟩ := Runs.of_bind rest
  obtain ⟨rfl, rfl⟩ := Runs.of_pure rest
  exact ⟨rfl, of_run_modifyDb written⟩

/-- The table without the rows of these keys. -/
def without (t : Table m.Row) (ids : List Nat) : Table m.Row :=
  t.deleteWhere (fun r => ids.contains (rowId r))

/-- Rows that are deleted one after the other. -/
theorem without_cons (t : Table m.Row) (id : Nat) (ids : List Nat) :
    without (t.deleteWhere (fun r => rowId r == id)) ids = without t (id :: ids) := by
  simp only [without, Table.deleteWhere, List.filter_filter, Table.mk.injEq, and_true]
  refine List.filter_congr fun r _ => ?_
  rw [List.contains_cons]
  cases rowId r == id <;> simp

theorem without_nil (t : Table m.Row) : without t [] = t := by
  simp [without, Table.deleteWhere]

theorem without_singleton (t : Table m.Row) (id : Nat) :
    t.deleteWhere (fun r => rowId r == id) = without t [id] := by
  rw [← without_cons, without_nil]

/-- Rows that are all there are all consumed, one by one. -/
theorem of_run_consumeEachRow : ∀ {rows : List β} {w : World} {consumed : List β},
    (∀ b ∈ rows, ∃ r ∈ (w.db.table m).rows, rowId r = pk b) → (rows.map pk).Nodup →
    Runs (consumeEachRow m pk rows) w consumed w' →
    consumed = rows ∧ w'.db = w.db.setTable m (without (w.db.table m) (rows.map pk))
  | [], w, consumed, _, _, run => by
      obtain ⟨rfl, rfl⟩ := Runs.of_pure run
      rw [List.map_nil, without_nil, Db.setTable_table]
      exact ⟨rfl, rfl⟩
  | b :: rows, w, consumed, there, nodup, run => by
      obtain ⟨n, w₁, deleted, rest⟩ := Runs.of_bind run
      obtain ⟨rfl, db₁⟩ := of_run_deleteRowsWhere deleted
      obtain ⟨others, w₂, tail, rest⟩ := Runs.of_bind rest
      obtain ⟨rfl, rfl⟩ := Runs.of_pure rest
      obtain ⟨fresh, nodup⟩ := List.nodup_cons.mp nodup
      -- the later rows have other keys, so they are still there
      have still : ∀ b' ∈ rows, ∃ r ∈ (w₁.db.table m).rows, rowId r = pk b' := by
        intro b' mem
        obtain ⟨r, inTable, key⟩ := there b' (List.mem_cons_of_mem _ mem)
        refine ⟨r, ?_, key⟩
        rw [db₁, Db.table_setTable_same, Table.rows_deleteWhere, List.mem_filter]
        refine ⟨inTable, ?_⟩
        have ne : rowId r ≠ pk b := by
          rw [key]
          exact fun same => fresh (List.mem_map.mpr ⟨b', mem, same⟩)
        simpa using ne
      obtain ⟨rfl, db₂⟩ := of_run_consumeEachRow still nodup tail
      constructor
      · obtain ⟨r, inTable, key⟩ := there b List.mem_cons_self
        have pos : 0 < (w.db.table m).rows.countP (fun r => rowId r == pk b) :=
          List.countP_pos_iff.mpr ⟨r, inTable, by simpa using key⟩
        rw [if_neg (by omega)]
      · rw [db₂, db₁, Db.table_setTable_same, Db.setTable_setTable, without_cons, List.map_cons]

/-- Rows that are all there are all consumed, whichever way. -/
theorem of_run_consumeSelectedRows {env : Env} {rows consumed : List β}
    (there : ∀ b ∈ rows, ∃ r ∈ (w.db.table m).rows, rowId r = pk b) (nodup : (rows.map pk).Nodup)
    (run : Runs (consumeSelectedRows env m pk rows) w consumed w') :
    consumed = rows ∧ w'.db = w.db.setTable m (without (w.db.table m) (rows.map pk)) := by
  unfold consumeSelectedRows at run
  split at run
  · exact of_run_consumeEachRow there nodup run
  · obtain ⟨n, w₁, deleted, rest⟩ := Runs.of_bind run
    obtain ⟨rfl, rfl⟩ := Runs.of_pure rest
    exact ⟨rfl, (of_run_deleteRowsWhere deleted).2⟩

end Consume

/-! ## Taking -/

namespace Audit

theorem held_perm {a : Audit} {m : StateModel} {ids ids' : List JobId} (same : ids.Perm ids') :
    a.held m ids = a.held m ids' := by
  unfold held
  rw [same.countP_eq]

/-- A known job of this backend is owned. -/
theorem Knows.owns {a : Audit} {j : Job} (knows : a.Knows j)
    (own : j.backendAlias = a.backendAlias) : a.owns j.id = true := by
  simp [Audit.owns, knows.identity, Job.identity, own]

end Audit

namespace Accounts

variable {a : Audit} {hand hand' : List JobId} {owed owed' : Nat} {db : Db} {m : StateModel}

/-- The job of a selected row is known. -/
theorem knows_of_selected (good : Accounts a hand owed db) {rows : List (m.Row × Job)}
    (selected : Selected db rows) {r : m.Row × Job} (mem : r ∈ rows) : a.Knows r.2 :=
  good.knows r.2 (mem_of_findJob (selected.job r mem)).1

/-- The columns of a selected row are those of the job it came with. -/
theorem matches_of_selected (good : Accounts a hand owed db) {rows : List (m.Row × Job)}
    (selected : Selected db rows) {r : m.Row × Job} (mem : r ∈ rows) :
    r.2.identity.Matches r.1 := by
  obtain ⟨i, known, same⟩ := (good.rowFits m r.1 (selected.mem r mem)).columns
  have identity := (good.knows_of_selected selected mem).identity
  rw [selected.id_eq mem, known] at identity
  rw [← Option.some.inj identity]
  exact same

/-- A row is among others of its table exactly when its key is. -/
theorem contains_rowId (good : Accounts a hand owed db) {rows : List m.Row}
    (there : ∀ r ∈ rows, r ∈ (db.table m).rows) {r : m.Row} (inTable : r ∈ (db.table m).rows) :
    (rows.map rowId).contains (rowId r) = true ↔ r ∈ rows := by
  rw [List.contains_iff_mem, List.mem_map]
  constructor
  · rintro ⟨r', mem, same⟩
    rwa [← List.inj_on_of_nodup_map (good.rowIds m) (there r' mem) inTable same]
  · exact fun mem => ⟨r, mem, rfl⟩

/-- The rows with the keys of distinct rows are these rows. -/
theorem filter_rowId_perm (good : Accounts a hand owed db) {rows : List m.Row}
    (there : ∀ r ∈ rows, r ∈ (db.table m).rows) (nodup : (rows.map rowId).Nodup) :
    ((db.table m).rows.filter (fun r => (rows.map rowId).contains (rowId r))).Perm rows := by
  refine (List.perm_ext_iff_of_nodup ((good.rowIds m).of_map.filter _) nodup.of_map).mpr
    fun r => ?_
  rw [List.mem_filter]
  exact ⟨fun both => (good.contains_rowId there both.1).mp both.2,
    fun mem => ⟨there r mem, (good.contains_rowId there (there r mem)).mpr mem⟩⟩

/-- Distinct rows of the backend's jobs are taken out of a table. -/
theorem take (good : Accounts a hand owed db) (rows : List m.Row)
    (there : ∀ r ∈ rows, r ∈ (db.table m).rows) (nodup : (rows.map rowId).Nodup)
    (own : ∀ r ∈ rows, a.owns (rowJobId r) = true) :
    Accounts a (rows.map rowJobId ++ hand) (owed + a.held m (rows.map rowJobId))
      (db.setTable m (without (db.table m) (rows.map rowId))) := by
  have taken := good.filter_rowId_perm there nodup
  have deleted := good.delete (p := fun r => (rows.map rowId).contains (rowId r))
    (fun r inTable contained => own r ((good.contains_rowId there inTable).mp contained))
  rw [Audit.held_perm (taken.map rowJobId)] at deleted
  exact deleted.perm ((taken.map rowJobId).append_right hand)

/-- What a transition selected is consumed whole. -/
theorem consume {w w' : World} {rows consumed : List (m.Row × Job)} {pk : m.Row × Job → Nat}
    (good : Accounts a hand owed w.db) (pkOf : ∀ r, pk r = rowId r.1)
    (selected : Selected w.db rows) (own : ∀ r ∈ rows, r.2.backendAlias = a.backendAlias)
    (run : Runs (consumeSelectedRows a.env m pk rows) w consumed w') :
    consumed = rows ∧
      Accounts a (rows.map (fun r => r.2.id) ++ hand)
        (owed + a.held m (rows.map (fun r => r.2.id))) w'.db := by
  obtain rfl : pk = fun r => rowId r.1 := funext pkOf
  obtain ⟨rfl, db'⟩ := of_run_consumeSelectedRows
    (fun r mem => ⟨r.1, selected.mem r mem, rfl⟩) selected.nodup run
  have taken := take good (consumed.map Prod.fst) ?_ ?_ ?_
  · rw [List.map_map, List.map_map] at taken
    rw [db', ← selected.ids_eq]
    exact ⟨rfl, taken⟩
  · intro r mapped
    obtain ⟨pair, mem, rfl⟩ := List.mem_map.mp mapped
    exact selected.mem pair mem
  · rw [List.map_map]
    exact selected.nodup
  · intro r mapped
    obtain ⟨pair, mem, rfl⟩ := List.mem_map.mp mapped
    rw [← selected.id_eq mem]
    exact (good.knows_of_selected selected mem).owns (own pair mem)

end Accounts

end DjQueue
