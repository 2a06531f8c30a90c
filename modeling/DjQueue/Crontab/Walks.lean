import DjQueue.Crontab.Accepted

/-!
# Stepped and wrapping ranges

The hours have 24 as a second name of 0, the weekdays 7.  A range that wraps goes over both names
of 0, one after the other, and the step counts both.  The result is that an item denotes every
`step`-th value of the walk around the distinct values of the field, unless it wraps past the two
names and takes a step there.
-/

namespace DjQueue.Crontab

open Relational

/-! ## The values of an item -/

/-- How many numbers `_cyclic_values` goes through. -/
def rawLength (start stop minimum maximum : Int) : Int :=
  if start ≤ stop then stop - start + 1 else (maximum - start + 1) + (stop - minimum + 1)

/-- The number with this index. -/
def rawAt (start stop minimum maximum index : Int) : Int :=
  if start ≤ stop ∨ index ≤ maximum - start then start + index
  else minimum + (index - (maximum - start + 1))

/-- A range counts on from its lower bound. -/
theorem IntSet.getElem?_range {low high x : Int} {i : Nat} :
    (IntSet.range low high)[i]? = some x ↔ (i : Int) < high + 1 - low ∧ x = low + i := by
  rw [IntSet.range, List.getElem?_map, Option.map_eq_some_iff]
  constructor
  · rintro ⟨j, found, rfl⟩
    rcases List.getElem?_eq_some_iff.mp found with ⟨small, here⟩
    rw [List.length_range] at small
    rw [List.getElem_range] at here
    omega
  · rintro ⟨small, rfl⟩
    refine ⟨i, ?_, rfl⟩
    rw [List.getElem?_eq_some_iff]
    refine ⟨by rw [List.length_range]; omega, List.getElem_range _⟩

/-- The number of integers of a range. -/
theorem IntSet.length_range {low high : Int} :
    (IntSet.range low high).length = (high + 1 - low).toNat := by
  rw [IntSet.range, List.length_map, List.length_range]

section Raw

variable {start stop minimum maximum step value : Int} {normalize : Int → Int}

/-- The raw values of a range that may wrap, one by one. -/
theorem getElem?_rawValues (low : minimum ≤ stop) (high : start ≤ maximum) {i : Nat} {x : Int} :
    (if start ≤ stop then IntSet.range start stop
      else IntSet.range start maximum ++ IntSet.range minimum stop)[i]? = some x ↔
      (i : Int) < rawLength start stop minimum maximum ∧
        x = rawAt start stop minimum maximum i := by
  unfold rawLength rawAt
  by_cases order : start ≤ stop
  · rw [if_pos order, if_pos order, if_pos (.inl order), IntSet.getElem?_range]
    constructor <;> rintro ⟨small, rfl⟩ <;> omega
  · rw [if_neg order, if_neg order]
    by_cases first : (i : Int) ≤ maximum - start
    · rw [if_pos (.inr first), List.getElem?_append_left (by rw [IntSet.length_range]; omega),
        IntSet.getElem?_range]
      constructor <;> rintro ⟨small, rfl⟩ <;> omega
    · rw [if_neg (by omega), List.getElem?_append_right (by rw [IntSet.length_range]; omega),
        IntSet.getElem?_range, IntSet.length_range]
      constructor <;> rintro ⟨small, rfl⟩ <;> omega

/-- Every `step`-th of the numbers is taken, and normalised. -/
theorem mem_cyclicValues_iff (low : minimum ≤ stop) (high : start ≤ maximum) (positive : 0 < step) :
    value ∈ cyclicValues start stop minimum maximum step normalize ↔
      ∃ k : Nat, k * step < rawLength start stop minimum maximum ∧
        value = normalize (rawAt start stop minimum maximum (k * step)) := by
  unfold cyclicValues
  rw [List.mem_map]
  constructor
  · rintro ⟨⟨x, i⟩, picked, rfl⟩
    rcases List.mem_filter.mp picked with ⟨listed, stepped⟩
    rw [List.mem_zipIdx_iff_getElem?, getElem?_rawValues low high] at listed
    rw [beq_iff_eq] at stepped
    have multiple : ((i / step.toNat : Nat) : Int) * step = i := by
      have whole := Int.ediv_mul_cancel (Int.dvd_of_emod_eq_zero stepped)
      rw [Int.natCast_ediv, Int.toNat_of_nonneg positive.le]
      exact whole
    refine ⟨i / step.toNat, ?_, ?_⟩
    · rw [multiple]
      exact listed.1
    · rw [multiple, listed.2]
  · rintro ⟨k, small, rfl⟩
    have index : ((k * step.toNat : Nat) : Int) = k * step := by
      rw [Int.natCast_mul, Int.toNat_of_nonneg positive.le]
    refine ⟨(rawAt start stop minimum maximum (k * step), k * step.toNat), ?_, rfl⟩
    rw [List.mem_filter, List.mem_zipIdx_iff_getElem?, getElem?_rawValues low high, index,
      beq_iff_eq]
    exact ⟨⟨small, rfl⟩, Int.mul_emod_left _ _⟩

end Raw

/-! ## The walk around a field -/

namespace FieldRule

/-- How many distinct values the field has. -/
def size (rule : FieldRule) : Int := rule.allValues.dedup.length

/-- The value this many steps after a start, around the distinct values of the field. -/
def walkAt (rule : FieldRule) (start index : Int) : Int :=
  rule.minimum + (rule.normalize start - rule.minimum + index) % rule.size

/-- How many values a walk meets: once around at most. -/
def walkLength (rule : FieldRule) (start stop : Int) : Int :=
  if start ≤ stop then min (stop - start + 1) rule.size
  else (rule.normalize stop - rule.normalize start) % rule.size + 1

/-- Every `step`-th value of the walk, the first one included. -/
def OnWalk (rule : FieldRule) (start stop step value : Int) : Prop :=
  ∃ k : Nat, k * step < rule.walkLength start stop ∧ value = rule.walkAt start (k * step)

/-- Every number of the field is a value of its own. -/
structure Plain (rule : FieldRule) : Prop where
  normalize : ∀ n, rule.normalize n = n
  size : rule.size = rule.maximum - rule.minimum + 1

/-- The last number of the field is another name of the first one. -/
structure Aliased (rule : FieldRule) : Prop where
  normalize : ∀ n, rule.normalize n = if n = rule.maximum then rule.minimum else n
  size : rule.size = rule.maximum - rule.minimum
  proper : rule.minimum < rule.maximum

/-- A walk that wraps over both names of the first value takes no step after the first of them. -/
def StepsShort (rule : FieldRule) (start stop step : Int) : Prop :=
  (rule.maximum - start) / step = (rule.maximum - start + 1 + (stop - rule.minimum)) / step

end FieldRule

section Walk

variable {rule : FieldRule} {start stop step : Int}

theorem stepped_nonneg (positive : 0 < step) (k : Nat) : 0 ≤ (k : Int) * step :=
  Int.mul_nonneg (Int.natCast_nonneg k) positive.le

/-- Two indexings of one list of values by multiples of the step. -/
theorem exists_step_congr {length length' : Int} {f g : Int → Int} (lengths : length = length')
    (same : ∀ i, 0 ≤ i → i < length → f i = g i) {value : Int} (positive : 0 < step) :
    (∃ k : Nat, k * step < length ∧ value = f (k * step)) ↔
      ∃ k : Nat, k * step < length' ∧ value = g (k * step) := by
  subst lengths
  constructor
  · rintro ⟨k, small, rfl⟩
    exact ⟨k, small, same _ (stepped_nonneg positive k) small⟩
  · rintro ⟨k, small, rfl⟩
    exact ⟨k, small, (same _ (stepped_nonneg positive k) small).symm⟩

theorem emod_of_once {x n : Int} (low : n ≤ x) (high : x < 2 * n) : x % n = x - n := by
  rw [← Int.sub_emod_right, Int.emod_eq_of_lt] <;> omega

theorem emod_of_below {x n : Int} (low : -n ≤ x) (high : x < 0) : x % n = x + n := by
  rw [← Int.add_emod_right, Int.emod_eq_of_lt] <;> omega

/-- In a plain field an item walks from its start by its step, round at the maximum. -/
theorem FieldRule.Plain.walk_iff (plain : rule.Plain) (bounds : rule.minimum ≤ start ∧
    start ≤ rule.maximum) (bounds' : rule.minimum ≤ stop ∧ stop ≤ rule.maximum)
    (positive : 0 < step) (value : Int) :
    value ∈ cyclicValues start stop rule.minimum rule.maximum step rule.normalize ↔
      rule.OnWalk start stop step value := by
  rw [mem_cyclicValues_iff bounds'.1 bounds.2 positive]
  apply exists_step_congr (f := fun i => rule.normalize (rawAt start stop rule.minimum rule.maximum i))
    (g := rule.walkAt start) ?_ ?_ positive
  · unfold rawLength FieldRule.walkLength
    rw [plain.normalize, plain.normalize, plain.size]
    split
    · omega
    · rw [emod_of_below] <;> omega
  · intro i nonneg small
    unfold rawLength at small
    unfold rawAt FieldRule.walkAt
    rw [plain.normalize, plain.normalize, plain.size]
    by_cases order : start ≤ stop
    · rw [if_pos order] at small
      rw [if_pos (.inl order), Int.emod_eq_of_lt] <;> omega
    · rw [if_neg order] at small
      by_cases first : i ≤ rule.maximum - start
      · rw [if_pos (.inr first), Int.emod_eq_of_lt] <;> omega
      · rw [if_neg (by omega), emod_of_once] <;> omega

/-- Without a wrap every name is met once, but for a walk from the first one to the last, which ends
where it began. -/
theorem FieldRule.Aliased.walk_iff_of_le (aliased : rule.Aliased) (low : rule.minimum ≤ start)
    (order : start ≤ stop) (high : stop ≤ rule.maximum) (positive : 0 < step) (value : Int) :
    value ∈ cyclicValues start stop rule.minimum rule.maximum step rule.normalize ↔
      rule.OnWalk start stop step value := by
  have proper := aliased.proper
  have same : ∀ i, 0 ≤ i → i ≤ stop - start →
      rule.normalize (rawAt start stop rule.minimum rule.maximum i) = rule.walkAt start i := by
    intro i nonneg small
    unfold rawAt FieldRule.walkAt
    rw [if_pos (.inl order), aliased.normalize, aliased.normalize, aliased.size]
    by_cases last : start = rule.maximum
    · have zero : i = 0 := by omega
      rw [if_pos (by omega), if_pos last, zero, Int.add_zero, Int.sub_self, Int.zero_emod]
      omega
    · rw [if_neg last]
      by_cases reaches : start + i = rule.maximum
      · rw [if_pos reaches, emod_of_once] <;> omega
      · rw [if_neg reaches, Int.emod_eq_of_lt] <;> omega
  rw [mem_cyclicValues_iff (by omega) (by omega) positive]
  unfold FieldRule.OnWalk FieldRule.walkLength rawLength
  rw [if_pos order, if_pos order, aliased.size]
  constructor
  · rintro ⟨k, small, rfl⟩
    by_cases around : (k : Int) * step = rule.maximum - rule.minimum
    · refine ⟨0, ?_, ?_⟩
      · omega
      · have nonneg := stepped_nonneg positive k
        rw [same _ nonneg (by omega), Int.natCast_zero, Int.zero_mul]
        unfold FieldRule.walkAt
        rw [around, aliased.size, Int.add_emod_right, Int.add_zero]
    · exact ⟨k, by omega, same _ (stepped_nonneg positive k) (by omega)⟩
  · rintro ⟨k, small, rfl⟩
    exact ⟨k, by omega, (same _ (stepped_nonneg positive k) (by omega)).symm⟩

/-- A wrap goes over the last number and then the first one, which are one value: every index after
them is one ahead of the walk. -/
theorem FieldRule.Aliased.normalize_rawAt (aliased : rule.Aliased) (low : rule.minimum ≤ stop)
    (wraps : stop < start) (high : start ≤ rule.maximum) {i : Int} (nonneg : 0 ≤ i) :
    (i ≤ rule.maximum - start →
      rule.normalize (rawAt start stop rule.minimum rule.maximum i) = rule.walkAt start i) ∧
    (rule.maximum - start < i → i ≤ rule.maximum - start + 1 + (stop - rule.minimum) →
      rule.normalize (rawAt start stop rule.minimum rule.maximum i) =
        rule.walkAt start (i - 1)) := by
  have proper := aliased.proper
  unfold rawAt FieldRule.walkAt
  rw [aliased.normalize start, aliased.size]
  constructor
  · intro first
    rw [if_pos (.inr first), aliased.normalize]
    by_cases last : start = rule.maximum
    · have zero : i = 0 := by omega
      rw [if_pos (by omega), if_pos last, zero, Int.add_zero, Int.sub_self, Int.zero_emod]
      omega
    · rw [if_neg last]
      by_cases reaches : start + i = rule.maximum
      · rw [if_pos reaches, emod_of_once] <;> omega
      · rw [if_neg reaches, Int.emod_eq_of_lt] <;> omega
  · intro later small
    rw [if_neg (by omega), aliased.normalize, if_neg (by omega)]
    by_cases last : start = rule.maximum
    · rw [if_pos last, Int.emod_eq_of_lt] <;> omega
    · rw [if_neg last, emod_of_once] <;> omega

/-- The length of a walk round the end of an aliased field. -/
theorem FieldRule.Aliased.walkLength_of_lt (aliased : rule.Aliased) (low : rule.minimum ≤ stop)
    (wraps : stop < start) (high : start ≤ rule.maximum) :
    rule.walkLength start stop = rule.maximum - start + 1 + (stop - rule.minimum) := by
  have proper := aliased.proper
  unfold FieldRule.walkLength
  rw [if_neg (by omega), aliased.normalize stop, aliased.normalize start, aliased.size,
    if_neg (by omega)]
  by_cases last : start = rule.maximum
  · rw [if_pos last, Int.emod_eq_of_lt] <;> omega
  · rw [if_neg last, emod_of_below] <;> omega

/-- The values of a walk are distinct. -/
theorem FieldRule.eq_of_walkAt {i j : Int} (nonneg : 0 ≤ i)
    (small : i < rule.size) (nonneg' : 0 ≤ j) (small' : j < rule.size)
    (same : rule.walkAt start i = rule.walkAt start j) : i = j := by
  unfold FieldRule.walkAt at same
  have modulo : i % rule.size = j % rule.size :=
    Int.emod_add_cancel_left.mp (Int.add_left_cancel same)
  rwa [Int.emod_eq_of_lt nonneg small, Int.emod_eq_of_lt nonneg' small'] at modulo

/-- A walk round the end of an aliased field meets both names of a value. -/
theorem FieldRule.Aliased.walk_iff_of_lt (aliased : rule.Aliased) (low : rule.minimum ≤ stop)
    (wraps : stop < start) (high : start ≤ rule.maximum) (positive : 0 < step) :
    (∀ value, value ∈ cyclicValues start stop rule.minimum rule.maximum step rule.normalize ↔
      rule.OnWalk start stop step value) ↔ step = 1 ∨ rule.StepsShort start stop step := by
  have proper := aliased.proper
  have size := aliased.size
  have length := aliased.walkLength_of_lt low wraps high
  have raw : rawLength start stop rule.minimum rule.maximum =
      rule.walkLength start stop + 1 := by
    rw [length, rawLength, if_neg (by omega)]
    omega
  have first {i : Int} (nonneg : 0 ≤ i) (before : i ≤ rule.maximum - start) :=
    (aliased.normalize_rawAt low wraps high nonneg).1 before
  have later {i : Int} (nonneg : 0 ≤ i) (after : rule.maximum - start < i)
      (small : i ≤ rule.maximum - start + 1 + (stop - rule.minimum)) :=
    (aliased.normalize_rawAt low wraps high nonneg).2 after small
  have listed (value : Int) :
      value ∈ cyclicValues start stop rule.minimum rule.maximum step rule.normalize ↔
        ∃ k : Nat, k * step < rawLength start stop rule.minimum rule.maximum ∧
          value = rule.normalize (rawAt start stop rule.minimum rule.maximum (k * step)) :=
    mem_cyclicValues_iff low high positive
  constructor
  · intro same
    by_contra long
    rw [not_or] at long
    -- the first step after the alias lands one short of the next value of the walk
    have before : (rule.maximum - start) / step <
        (rule.maximum - start + 1 + (stop - rule.minimum)) / step :=
      lt_of_le_of_ne (Int.ediv_le_ediv positive (by omega)) long.2
    have nonneg : 0 ≤ (rule.maximum - start) / step := Int.ediv_nonneg (by omega) positive.le
    rcases Int.eq_ofNat_of_zero_le (show 0 ≤ (rule.maximum - start) / step + 1 by omega) with
      ⟨k, next⟩
    have after : rule.maximum - start < k * step := by
      rw [← next]
      exact Int.lt_ediv_add_one_mul_self _ positive
    have inside : k * step ≤ rule.maximum - start + 1 + (stop - rule.minimum) := by
      apply Int.mul_le_of_le_ediv positive
      omega
    have taken := later (stepped_nonneg positive k) after inside
    rcases (same _).mp ((listed _).mpr ⟨k, by omega, taken.symm⟩) with ⟨j, small, met⟩
    have index : k * step - 1 = j * step :=
      FieldRule.eq_of_walkAt (by omega) (by omega) (stepped_nonneg positive j) (by omega) met
    have divides : step ∣ 1 := ⟨k - j, by rw [Int.mul_comm, Int.sub_mul]; omega⟩
    exact long.1 (Int.eq_one_of_dvd_one positive.le divides)
  · intro short value
    rw [listed]
    constructor
    · rintro ⟨k, small, rfl⟩
      by_cases early : k * step ≤ rule.maximum - start
      · exact ⟨k, by omega, first (stepped_nonneg positive k) early⟩
      · rcases short with one | short
        · subst one
          refine ⟨k - 1, by omega, ?_⟩
          rw [later (stepped_nonneg positive k) (by omega) (by omega)]
          congr 1
          omega
        · exfalso
          apply early
          apply Int.mul_le_of_le_ediv positive
          rw [show (rule.maximum - start) / step = _ from short]
          apply Int.le_ediv_of_mul_le positive
          omega
    · rintro ⟨k, small, rfl⟩
      rw [length] at small
      by_cases early : k * step ≤ rule.maximum - start
      · exact ⟨k, by omega, (first (stepped_nonneg positive k) early).symm⟩
      · rcases short with one | short
        · subst one
          refine ⟨k + 1, by omega, ?_⟩
          rw [later (by omega) (by omega) (by omega)]
          congr 1
          omega
        · exfalso
          apply early
          apply Int.mul_le_of_le_ediv positive
          rw [show (rule.maximum - start) / step = _ from short]
          apply Int.le_ediv_of_mul_le positive
          omega

end Walk

/-! ## The fields -/

/-- Sixty seconds, each with one name. -/
theorem plain_secondsRule : secondsRule.Plain := ⟨fun _ => rfl, by decide⟩
/-- Sixty minutes, each with one name. -/
theorem plain_minutesRule : minutesRule.Plain := ⟨fun _ => rfl, by decide⟩
/-- Twelve months, each with one name. -/
theorem plain_monthsRule : monthsRule.Plain := ⟨fun _ => rfl, by decide⟩
theorem aliased_hoursRule : hoursRule.Aliased := ⟨fun _ => rfl, by decide, by decide⟩
theorem aliased_weekdaysRule : weekdaysRule.Aliased := ⟨fun _ => rfl, by decide, by decide⟩

/-- The fields of ranges without a count from the end. -/
def rangeRules : List FieldRule :=
  [secondsRule, minutesRule, hoursRule, monthsRule, weekdaysRule]

/-- A field with ranges is plain or aliased. -/
theorem plain_or_aliased {rule : FieldRule} (field : rule ∈ rangeRules) :
    rule.Plain ∨ rule.Aliased := by
  simp only [rangeRules, List.mem_cons, List.not_mem_nil, or_false] at field
  rcases field with rfl | rfl | rfl | rfl | rfl
  · exact .inl plain_secondsRule
  · exact .inl plain_minutesRule
  · exact .inr aliased_hoursRule
  · exact .inl plain_monthsRule
  · exact .inr aliased_weekdaysRule

/-- The parser reads an item as every `step`-th value from `start` to `stop`: the bounds it is
written with, the whole field of a `*`, or from a single bound to the end of its field. -/
def ReadsItem (p : Platform) (rule : FieldRule) (item : List Char) (start stop step : Int) : Prop :=
  ∃ rangeText stepped whole, splitStep item = .ok (rangeText, step, stepped) ∧
    itemRange p rule rangeText stepped = .ok (start, stop, whole)

theorem parseStep_positive (value : List Char) : Yields (fun step => 0 < step) (parseStep value) := by
  unfold parseStep
  split
  · refine Yields.bind (Yields.trivial _) ?_
    intro step _
    split
    · exact Yields.error
    · exact Yields.pure (by omega)
  · exact Yields.error

theorem splitStep_positive (item : List Char) :
    Yields (fun split => 0 < split.2.1) (splitStep item) := by
  unfold splitStep
  split
  · exact Yields.bind (parseStep_positive _) fun step positive => Yields.pure positive
  · split
    · exact Yields.ok Int.one_pos
    · split
      · exact Yields.error
      · exact Yields.bind (parseStep_positive _) fun step positive => Yields.pure positive

/-- An accepted item of the seconds, minutes, hours, months or weekdays denotes every `step`-th value
of the walk around its field, just when the field has no second name of its first value, or the
item does not wrap, or its step is one, or its steps end before the second name. -/
theorem item_walks_field_iff (p : Platform) {rule : FieldRule} (field : rule ∈ rangeRules)
    (item : List Char) {values : List Int} {wildcard : Bool}
    (accepted : expandSimpleItem p rule item = .ok (values, wildcard)) :
    ∃ start stop step, ReadsItem p rule item start stop step ∧
      ((∀ value, value ∈ values ↔ rule.OnWalk start stop step value) ↔
        rule.Plain ∨ start ≤ stop ∨ step = 1 ∨ rule.StepsShort start stop step) := by
  have order : rule.minimum ≤ rule.maximum := by
    rcases plain_or_aliased field with plain | aliased
    · have count : 0 ≤ rule.size := Int.natCast_nonneg _
      simp only [rangeRules, List.mem_cons, List.not_mem_nil, or_false] at field
      rcases field with rfl | rfl | rfl | rfl | rfl <;> decide
    · exact aliased.proper.le
  rcases bind_eq_ok accepted with ⟨⟨rangeText, step, stepped⟩, divided, rest⟩
  rcases bind_eq_ok rest with ⟨⟨start, stop, whole⟩, ranged, done⟩
  cases done
  have positive : 0 < step := splitStep_positive item _ divided
  rcases itemRange_bounds order rangeText stepped _ ranged with ⟨bounds, bounds'⟩
  refine ⟨start, stop, step, ⟨rangeText, stepped, whole, divided, ranged⟩, ?_⟩
  rcases plain_or_aliased field with plain | aliased
  · exact iff_of_true (plain.walk_iff bounds bounds' positive) (.inl plain)
  · have notPlain : ¬rule.Plain := by
      intro plain
      have sizes := plain.size.symm.trans aliased.size
      omega
    by_cases wraps : start ≤ stop
    · exact iff_of_true (aliased.walk_iff_of_le bounds.1 wraps bounds'.2 positive)
        (.inr (.inl wraps))
    · rw [aliased.walk_iff_of_lt bounds'.1 (Int.not_le.mp wraps) bounds.2 positive]
      simp only [notPlain, wraps, false_or]

/-- From eight in the evening to two, every four hours: the step to midnight is the last one. -/
theorem item_walks_evening : ∃ start stop step,
    ReadsItem plainPlatform hoursRule "20-2/4".toList start stop step ∧
      ∀ value, value ∈ [20, 0] ↔ hoursRule.OnWalk start stop step value := by
  have accepted : expandSimpleItem plainPlatform hoursRule "20-2/4".toList =
      .ok ([20, 0], false) := by decide
  have field : hoursRule ∈ rangeRules := by simp [rangeRules]
  rcases item_walks_field_iff plainPlatform field "20-2/4".toList accepted with
    ⟨start, stop, step, reads, exact_iff⟩
  refine ⟨start, stop, step, reads, exact_iff.mpr (.inr (.inr (.inr ?_)))⟩
  rcases reads with ⟨rangeText, stepped, whole, divided, ranged⟩
  have split : splitStep "20-2/4".toList = .ok ("20-2".toList, 4, true) := by decide
  cases split.symm.trans divided
  have range : itemRange plainPlatform hoursRule "20-2".toList true = .ok (20, 2, false) := by
    decide
  cases range.symm.trans ranged
  unfold FieldRule.StepsShort
  decide

/-- From ten in the evening to two, every other hour, is ten, midnight and one. -/
theorem item_steps_over_midnight :
    ∃ values wildcard, expandSimpleItem plainPlatform hoursRule "22-2/2".toList =
        .ok (values, wildcard) ∧
      ReadsItem plainPlatform hoursRule "22-2/2".toList 22 2 2 ∧
      ¬∀ value, value ∈ values ↔ hoursRule.OnWalk 22 2 2 value := by
  refine ⟨[22, 0, 1], false, by decide, ⟨"22-2".toList, true, false, by decide, by decide⟩, ?_⟩
  intro same
  have two : hoursRule.OnWalk 22 2 2 2 := ⟨2, by decide, by decide⟩
  exact absurd ((same 2).mpr two) (by decide)

end DjQueue.Crontab
