import DjQueue.Relational.Ordering
import DjQueue.Operations.Claiming

/-!
# One specification of selection

A claim selects ready rows in six ways: by priority alone, by keys and a lookup, queue by queue,
in chained CTEs, by a computed rank, and by what `*` adds. Each of them takes the first rows in
the order of the first selector that matches, priority and key.
-/

namespace DjQueue

open Relational

/-! ## The specification -/

/-- The selectors a claim heeds: none after the first `*`. -/
def upToStar : List String → List String
  | [] => []
  | selector :: rest => if selector = "*" then [selector] else selector :: upToStar rest

/-- What an absent selector, or an empty tuple of them, stands for. -/
def heededSelectors : QueueSelectors → List String
  | .none => ["*"]
  | .tuple [] => ["*"]
  | queues => upToStar (normalizeQueueSelectors queues)

/-- The first rows, of those some selector matches, by the first selector that does. -/
def specifiedRows (rows : List ReadyExecution) (selectors : List String) (limit : Nat) :
    List ReadyExecution :=
  (orderBy (rankedOrder selectors) (rows.filter (fun r =>
    selectors.any (queueMatchesSelector r.queueName)))).take limit

/-! ## Orders -/

/-- The order of ready rows is total and transitive. -/
theorem orders_readyOrder : Orders readyOrder := by
  constructor
  · intro a b c
    simp only [readyOrder, higherPriority, Bool.or_eq_true, Bool.and_eq_true, decide_eq_true_eq,
      beq_iff_eq]
    omega
  · intro a b
    simp only [readyOrder, higherPriority, Bool.or_eq_true, Bool.and_eq_true, decide_eq_true_eq,
      beq_iff_eq]
    omega

/-- Ready rows that compare alike have one key. -/
theorem antisymm_readyOrder {rows : List ReadyExecution}
    (nodup : (rows.map ReadyExecution.id).Nodup) :
    ∀ a ∈ rows, ∀ b ∈ rows, readyOrder a b → readyOrder b a → a = b := by
  intro a here b there
  simp only [readyOrder, higherPriority, Bool.or_eq_true, Bool.and_eq_true, decide_eq_true_eq,
    beq_iff_eq]
  intro first second
  exact List.inj_on_of_nodup_map nodup here there (by omega)

/-- What a selector asks of a row. -/
def selects (selector : String) (r : ReadyExecution) : Bool :=
  queueMatchesSelector r.queueName selector

/-- A row is met by a condition of the list exactly when a selector matches its queue. -/
theorem meetsAny_selects (selectors : List String) (r : ReadyExecution) :
    meetsAny (selectors.map selects) r = selectors.any (queueMatchesSelector r.queueName) := by
  rw [meetsAny, List.any_map]
  rfl

/-- The rank of `CASE WHEN` is the place of the first selector that matches. -/
theorem rankedOrder_eq (selectors : List String) :
    rankedOrder selectors = rankedBy (firstMet (selectors.map selects)) readyOrder := by
  funext a b
  rw [rankedBy, firstMet, firstMet, List.findIdx_map, List.findIdx_map]
  rfl

section Paths

variable {rows : List ReadyExecution} (nodup : (rows.map ReadyExecution.id).Nodup)

include nodup

/-- The specification takes the rows of one selector after another. -/
theorem specifiedRows_eq (selectors : List String) (limit : Nat) :
    specifiedRows rows selectors limit =
      (blocks readyOrder (selectors.map selects) rows).take limit := by
  rw [blocks_eq_orderBy orders_readyOrder _ (antisymm_readyOrder nodup), ← rankedOrder_eq,
    List.filter_congr fun r _ => meetsAny_selects selectors r, specifiedRows]

end Paths

/-! ## Exact names -/

theorem selects_of_exact {selector : String} (exact_ : isPrefixSelector selector = false) :
    selects selector = fun r => r.queueName == selector := by
  funext r
  rw [selects, queueMatchesSelector, exact_]
  rfl

/-- A list of exact selectors is one of equalities. -/
theorem map_selects_of_exact {selectors : List String}
    (exact_ : selectors.all (fun s => !isPrefixSelector s) = true) :
    selectors.map selects = selectors.map (fun s r => r.queueName == s) := by
  apply List.map_congr_left
  intro s mem
  exact selects_of_exact (by simpa using List.all_eq_true.mp exact_ s mem)

/-- The first rows of two lists: the second fills what the first leaves. -/
theorem take_append_length_take {α : Type} (first second : List α) (n : Nat) :
    (first ++ second).take n = first.take n ++ second.take (n - (first.take n).length) := by
  rw [List.take_append, List.length_take]
  congr 2
  omega

/-! ### The chained CTEs -/

/-- The rows of a CTE carry the index of their selector. -/
theorem index_le_of_mem_exactQueueCtes {rows : List ReadyExecution} {entry : Nat × ReadyExecution} :
    ∀ {selectors : List String} {index limit : Nat},
      entry ∈ exactQueueCtes rows selectors index limit → index ≤ entry.1
  | [], _, _, mem => absurd mem List.not_mem_nil
  | selector :: rest, index, limit, mem => by
      rcases List.mem_append.mp mem with here | later
      · rcases List.mem_map.mp here with ⟨r, _, rfl⟩
        exact Nat.le_refl _
      · exact Nat.le_of_succ_le (index_le_of_mem_exactQueueCtes later)

/-- The rows come out of the CTEs in the order the statement asks for. -/
theorem pairwise_exactQueueCtes (rows : List ReadyExecution) :
    ∀ (selectors : List String) (index limit : Nat),
      (exactQueueCtes rows selectors index limit).Pairwise (fun a b => cteOrder a b)
  | [], _, _ => List.Pairwise.nil
  | selector :: rest, index, limit => by
      rw [exactQueueCtes]
      apply List.pairwise_append.mpr
      refine ⟨?_, pairwise_exactQueueCtes rows rest _ _, ?_⟩
      · apply List.pairwise_map.mpr
        apply ((orders_readyOrder.pairwise _).sublist (List.take_sublist _ _)).imp
        intro a b before
        simpa [cteOrder] using before
      · intro a here b later
        rcases List.mem_map.mp here with ⟨r, _, rfl⟩
        have after : index < b.1 := index_le_of_mem_exactQueueCtes later
        simp [cteOrder, after]

/-- The CTEs of exact selectors are the blocks of their queues. -/
theorem snd_exactQueueCtes (rows : List ReadyExecution) :
    ∀ {selectors : List String} (index limit : Nat), selectors.Nodup →
      (exactQueueCtes rows selectors index limit).map Prod.snd =
        (blocks readyOrder (selectors.map (fun s r => r.queueName == s)) rows).take limit
  | [], _, _, _ => by simp [exactQueueCtes, blocks]
  | selector :: rest, index, limit, distinct => by
      rcases List.nodup_cons.mp distinct with ⟨fresh, distinct⟩
      -- no row of a later queue is among those the first selector takes
      have others : blocks readyOrder (rest.map (fun s r => r.queueName == s))
          (rows.filter (fun r => !(r.queueName == selector))) =
            blocks readyOrder (rest.map (fun s r => r.queueName == s)) rows := by
        apply blocks_filter
        intro p mem r _ meets
        rcases List.mem_map.mp mem with ⟨s, later, rfl⟩
        have queue : r.queueName = s := beq_iff_eq.mp meets
        have ne : s ≠ selector := fun same => fresh (same ▸ later)
        simpa [queue] using ne
      rw [exactQueueCtes, List.map_append, List.map_map, snd_exactQueueCtes rows _ _ distinct,
        List.map_cons, blocks, others, take_append_length_take]
      congr 1
      exact List.map_id _

/-- On exact selectors the statement with CTEs finds the blocks. -/
theorem selectReadyRowsByExactQueues_eq (rows : List ReadyExecution) (selectors : List String)
    (limit : Nat) : selectReadyRowsByExactQueues rows selectors limit =
      (blocks readyOrder (selectors.map (fun s r => r.queueName == s)) rows).take limit := by
  have statement : (orderBy cteOrder (exactQueueCtes rows (distinct selectors) 0 limit)).map
      Prod.snd = (blocks readyOrder (selectors.map (fun s r => r.queueName == s)) rows).take
        limit := by
    rw [Orders.orderBy_of_pairwise (pairwise_exactQueueCtes rows _ _ _),
      snd_exactQueueCtes rows _ _ (distinct_nodup selectors), blocks_distinct]
  rw [selectReadyRowsByExactQueues, statement]
  split
  · rename_i nothing
    rcases Bool.or_eq_true_iff.mp nothing with empty | zero
    · rw [← blocks_distinct, List.isEmpty_iff.mp empty, List.map_nil, blocks, List.take_nil]
    · rw [of_decide_eq_true zero, List.take_zero]
  · rfl

/-! ### Query by query -/

/-- The rows a later query still sees. -/
def unselected (rows selected : List ReadyExecution) : List ReadyExecution :=
  rows.filter (fun r => !(selected.map ReadyExecution.id).contains r.id)

/-- Without a selection all rows are left. -/
theorem unselected_nil (rows : List ReadyExecution) : unselected rows [] = rows :=
  List.filter_eq_self.mpr fun _ _ => rfl

/-- A query that fills the limit leaves the next one nothing to take, so that the next one may
as well be asked after all the rows the first could have taken. -/
theorem take_append_unselected (rows selected all : List ReadyExecution) (n : Nat)
    (query : List ReadyExecution → List ReadyExecution) :
    all.take n ++ (query (unselected rows (selected ++ all.take n))).take
        (n - (all.take n).length) =
      (all ++ query (unselected rows (selected ++ all))).take n := by
  rw [take_append_length_take]
  by_cases short : all.length ≤ n
  · rw [List.take_of_length_le short]
  · have full : n - (all.take n).length = 0 := by
      rw [List.length_take]
      omega
    rw [full, List.take_zero, List.take_zero]

section Queries

variable {rows : List ReadyExecution} (nodup : (rows.map ReadyExecution.id).Nodup)

include nodup

/-- A row is selected exactly when its key is. -/
theorem contains_id_iff {selected : List ReadyExecution} (inside : ∀ r ∈ selected, r ∈ rows)
    {r : ReadyExecution} (mem : r ∈ rows) :
    (selected.map ReadyExecution.id).contains r.id = true ↔ r ∈ selected := by
  rw [List.contains_iff_mem, List.mem_map]
  constructor
  · rintro ⟨r', there, same⟩
    exact List.inj_on_of_nodup_map nodup (inside r' there) mem same ▸ there
  · exact fun there => ⟨r, there, rfl⟩

/-- Excluding the rows of a query is asking for those that fail its condition. -/
theorem unselected_append {selected all : List ReadyExecution}
    (inside : ∀ r ∈ selected, r ∈ rows) {p : ReadyExecution → Bool}
    (taken : ∀ r, r ∈ all ↔ r ∈ (unselected rows selected).filter p) :
    unselected rows (selected ++ all) = (unselected rows selected).filter (fun r => !p r) := by
  have there : ∀ r ∈ selected ++ all, r ∈ rows := by
    intro r mem
    rcases List.mem_append.mp mem with old | new
    · exact inside r old
    · exact List.mem_of_mem_filter (List.mem_of_mem_filter ((taken r).mp new))
  rw [unselected, unselected, List.filter_filter]
  apply List.filter_congr
  intro r mem
  have both := contains_id_iff nodup there mem
  have old := contains_id_iff nodup inside mem
  rw [List.mem_append, taken, List.mem_filter, unselected, List.mem_filter, ← old] at both
  cases before : (selected.map ReadyExecution.id).contains r.id <;> cases meets : p r <;>
    simp_all

/-- The loop over exact selectors finds the blocks of the rest. -/
theorem selectExactQueueLoop_eq : ∀ (selectors : List String) (limit : Nat)
    {selected : List ReadyExecution}, (∀ r ∈ selected, r ∈ rows) →
    selectExactQueueLoop rows selectors limit selected =
      selected ++ (blocks readyOrder (selectors.map (fun s r => r.queueName == s))
        (unselected rows selected)).take (limit - selected.length)
  | [], limit, selected, _ => by simp [selectExactQueueLoop, blocks]
  | selector :: rest, limit, selected, inside => by
      rw [selectExactQueueLoop]
      dsimp only
      split
      · rename_i filled
        rw [filled, List.take_zero, List.append_nil]
      · have query : rows.filter (fun r => !(selected.map ReadyExecution.id).contains r.id &&
              r.queueName == selector) =
            (unselected rows selected).filter (fun r => r.queueName == selector) := by
          rw [unselected, List.filter_filter]
          exact List.filter_congr fun r _ => Bool.and_comm _ _
        have next : ∀ r ∈ selected ++ (orderBy readyOrder ((unselected rows selected).filter
            (fun r => r.queueName == selector))).take (limit - selected.length), r ∈ rows := by
          intro r mem
          rcases List.mem_append.mp mem with old | new
          · exact inside r old
          · exact List.mem_of_mem_filter
              (List.mem_of_mem_filter (mem_orderBy.mp (List.mem_of_mem_take new)))
        rw [query, selectExactQueueLoop_eq rest limit next, List.append_assoc, List.map_cons,
          blocks, ← unselected_append nodup inside fun r => mem_orderBy,
          ← take_append_unselected, List.length_append, Nat.sub_add_eq]

/-- `*` after other selectors takes what they leave. -/
theorem append_selectStarRemainder (conds : List (ReadyExecution → Bool)) (limit : Nat) :
    (blocks readyOrder conds rows).take limit ++
        selectStarRemainder rows ((blocks readyOrder conds rows).take limit) limit =
      (blocks readyOrder (conds ++ [fun _ => true]) rows).take limit := by
  have rest : unselected rows ([] ++ blocks readyOrder conds rows) =
      (unselected rows []).filter (fun r => !meetsAny conds r) := by
    apply unselected_append nodup fun r mem => absurd mem List.not_mem_nil
    intro r
    rw [unselected_nil, mem_blocks, List.mem_filter]
  rw [unselected_nil, List.nil_append] at rest
  have filled := take_append_unselected rows [] (blocks readyOrder conds rows) limit
    (orderBy readyOrder)
  rw [List.nil_append, List.nil_append, rest] at filled
  rw [blocks_concat]
  simp only [Bool.and_true]
  exact filled

/-! ### Keys, then rows -/

/-- Looking the selected keys up again finds the rows they were read from. -/
theorem filterMap_find_id : ∀ {l : List ReadyExecution}, (∀ r ∈ l, r ∈ rows) →
    (l.map ReadyExecution.id).filterMap (fun id => rows.find? (fun r => r.id == id)) = l
  | [], _ => rfl
  | r :: l, there => by
      rw [List.map_cons, List.filterMap_cons, find?_of_unique nodup (there r List.mem_cons_self)]
      dsimp only
      rw [filterMap_find_id (fun r mem => there r (List.mem_cons_of_mem _ mem))]

/-- By row ids the rows come in order. -/
theorem selectByRowIds_eq (limit : Nat) :
    selectByRowIds rows limit = (orderBy readyOrder rows).take limit := by
  rw [selectByRowIds]
  exact filterMap_find_id nodup fun r mem => mem_orderBy.mp (List.mem_of_mem_take mem)

/-- Without selectors the rows come in order. -/
theorem selectAllRows_eq (env : Env) (limit : Nat) :
    selectAllRows env rows limit = (orderBy readyOrder rows).take limit := by
  rw [selectAllRows]
  cases env.config.family with
  | postgresql => rfl
  | sqlite => rfl
  | mysql => exact selectByRowIds_eq nodup limit
  | mariadb => exact selectByRowIds_eq nodup limit

/-! ## Every path -/

/-- With prefixes the rows come block by block. -/
theorem selectOrderedRows_eq (env : Env) (selectors : List String) (limit : Nat) :
    selectOrderedRows env rows selectors limit =
      (blocks readyOrder (selectors.map selects) rows).take limit := by
  rw [selectOrderedRows]
  split
  · rename_i empty
    rw [List.isEmpty_iff.mp empty, List.map_nil, blocks, List.take_nil]
  · split
    · rename_i exact_
      rw [map_selects_of_exact exact_, selectExactQueueRows]
      split
      · exact selectReadyRowsByExactQueues_eq rows selectors limit
      · rw [selectExactQueueLoop_eq nodup selectors limit fun r mem =>
          absurd mem List.not_mem_nil]
        rw [List.nil_append, List.length_nil, Nat.sub_zero, unselected_nil]
    · exact specifiedRows_eq nodup selectors limit

end Queries

theorem selects_star : selects "*" = fun _ => true := by
  funext r
  rw [selects, queueMatchesSelector]
  simp [isPrefixSelector]

/-- What is heeded of a list goes up to the first star. -/
theorem upToStar_eq : ∀ selectors : List String,
    upToStar selectors = selectors.takeWhile (· ≠ "*") ++
      if selectors.contains "*" then ["*"] else []
  | [] => rfl
  | selector :: rest => by
      by_cases star : selector = "*"
      · simp [upToStar, star]
      · have other : ¬ "*" = selector := fun same => star same.symm
        simp [upToStar, star, other, upToStar_eq rest]

/-- What stands for every queue is `*` alone. -/
theorem heededSelectors_of_matchAll {queues : QueueSelectors}
    (all : selectorsMatchAll queues = true) : heededSelectors queues = ["*"] := by
  cases queues with
  | none => rfl
  | str s =>
      rw [beq_iff_eq.mp all]
      rfl
  | list l =>
      rw [beq_iff_eq.mp all]
      rfl
  | tuple l =>
      rcases Bool.or_eq_true_iff.mp all with empty | star
      · rw [beq_iff_eq.mp empty]
        rfl
      · rw [beq_iff_eq.mp star]
        rfl

/-- A list without a star that stands first is heeded up to a star. -/
theorem heededSelectors_of_not_matchAll {queues : QueueSelectors}
    (some : selectorsMatchAll queues = false) :
    heededSelectors queues = upToStar (normalizeQueueSelectors queues) := by
  cases queues with
  | none => cases some
  | str s => rfl
  | list l => rfl
  | tuple l =>
      cases l with
      | nil => cases some
      | cons selector rest => rfl

/-- Whichever statement is used, the rows are those of the specification. -/
theorem selectReadyRows_eq {rows : List ReadyExecution}
    (nodup : (rows.map ReadyExecution.id).Nodup) (env : Env) (queues : QueueSelectors)
    (limit : Nat) :
    selectReadyRows env rows queues limit = specifiedRows rows (heededSelectors queues) limit := by
  rw [specifiedRows_eq nodup, selectReadyRows]
  cases all : selectorsMatchAll queues with
  | true =>
      rw [if_pos rfl, heededSelectors_of_matchAll all, selectAllRows_eq nodup, List.map_singleton,
        selects_star, blocks, blocks, List.append_nil, List.filter_true]
  | false =>
      rw [if_neg Bool.false_ne_true, heededSelectors_of_not_matchAll all, upToStar_eq]
      dsimp only
      rw [selectOrderedRows_eq nodup]
      split
      · rw [append_selectStarRemainder nodup, List.map_append, List.map_singleton, selects_star]
      · rw [List.append_nil]

/-- Whatever the backend, the database and the selectors, a claim selects the first rows of the
unpaused ones that a heeded selector matches: by the first selector that matches, then priority,
then key; and it selects no row twice. -/
theorem selection_meets_specification (env : Env) (db : Db) (queues : QueueSelectors)
    (limit : Nat) (unique : (db.ready.rows.map ReadyExecution.id).Nodup) :
    selectReadyRows env (claimableRows db env.config.backendAlias) queues limit =
        specifiedRows (claimableRows db env.config.backendAlias) (heededSelectors queues) limit ∧
      (selectReadyRows env (claimableRows db env.config.backendAlias) queues limit).Nodup := by
  have nodup : ((claimableRows db env.config.backendAlias).map ReadyExecution.id).Nodup :=
    unique.sublist (List.filter_sublist.map _)
  have selected := selectReadyRows_eq nodup env queues limit
  have rows : (claimableRows db env.config.backendAlias).Nodup := nodup.of_map
  constructor
  · exact selected
  · rw [selected, specifiedRows]
    apply List.Nodup.sublist (List.take_sublist _ _)
    exact (orderBy_perm _ _).nodup_iff.mpr (rows.filter _)

/-- Five ready rows, one of them in a paused queue. -/
def fiveReady : Db := { Db.empty with
  ready := ⟨[⟨1, 11, "default", "mail", 0, 0, none⟩, ⟨2, 12, "default", "mail_bulk", 5, 0, none⟩,
    ⟨3, 13, "default", "reports", 9, 0, none⟩, ⟨4, 14, "default", "mail", 0, 0, none⟩,
    ⟨5, 15, "default", "paused", 9, 0, none⟩], 6⟩
  pauses := ⟨[⟨1, "default", "paused", 0⟩], 2⟩ }

/-- An exact name, an overlapping prefix, and a star in the middle. -/
theorem selection_meets_specification_on_overlap :
    (selectReadyRows (Env.ofConfig { family := .mysql })
        (claimableRows fiveReady (Env.ofConfig { family := .mysql }).config.backendAlias)
        (.list ["mail_bulk", "mail*", "*", "mail"]) 4).map ReadyExecution.id = [2, 1, 4, 3] ∧
      (selectReadyRows (Env.ofConfig { family := .mysql })
        (claimableRows fiveReady (Env.ofConfig { family := .mysql }).config.backendAlias)
        (.list ["mail_bulk", "mail*", "*", "mail"]) 4).Nodup := by
  have selected := selection_meets_specification (Env.ofConfig { family := .mysql }) fiveReady
    (.list ["mail_bulk", "mail*", "*", "mail"]) 4 (by decide)
  constructor
  · rw [selected.1]
    decide +kernel
  · exact selected.2

end DjQueue
