import DjQueue.Crontab.Parse
import DjQueue.Relational.Yields

/-!
# What the parser accepts

The clock fields of a parsed schedule hold clock readings, and the schedules of one text share
their time zone.
-/

namespace DjQueue.Crontab

open Regex Relational

/-! ## Fields -/

section Fields

variable {p : Platform} {rule : FieldRule}

/-- The values of a walk through the field are values of the field. -/
theorem mem_cyclicValues {start stop minimum maximum step : Int} {normalize : Int → Int} {n : Int}
    (inside : minimum ≤ start ∧ start ≤ maximum) (inside' : minimum ≤ stop ∧ stop ≤ maximum)
    (mem : n ∈ cyclicValues start stop minimum maximum step normalize) :
    n ∈ (IntSet.range minimum maximum).map normalize := by
  obtain ⟨⟨value, index⟩, picked, rfl⟩ := List.mem_map.mp mem
  have raw := (List.mem_zipIdx (List.mem_of_mem_filter picked)).2.2
  refine List.mem_map.mpr ⟨value, IntSet.mem_range.mpr ?_, rfl⟩
  have walked := List.mem_of_getElem? (List.getElem?_eq_some_iff.mpr ⟨_, raw.symm⟩)
  split at walked
  · rw [IntSet.mem_range] at walked
    omega
  · rw [List.mem_append, IntSet.mem_range, IntSet.mem_range] at walked
    omega

/-- A bound is a number of the field, or an exception. -/
theorem parseSimpleBound_bounds (value : List Char) :
    Yields (fun number => rule.minimum ≤ number ∧ number ≤ rule.maximum)
      (parseSimpleBound p rule value) := by
  refine Yields.bind (Yields.trivial _) ?_
  intro number _
  split
  · exact Yields.error
  · exact Yields.pure (by omega)

/-- Both bounds of a range are numbers of the field. -/
theorem parseSimpleRange_bounds (rangeText : List Char) :
    Yields (fun range => (rule.minimum ≤ range.1 ∧ range.1 ≤ rule.maximum) ∧
      rule.minimum ≤ range.2.1 ∧ range.2.1 ≤ rule.maximum) (parseSimpleRange p rule rangeText) := by
  unfold parseSimpleRange
  split
  · exact Yields.bind (parseSimpleBound_bounds _) (fun value h => Yields.pure ⟨h, h⟩)
  · dsimp only
    split
    · exact Yields.error
    · exact Yields.bind (parseSimpleBound_bounds _) (fun start h =>
        Yields.bind (parseSimpleBound_bounds _) (fun stop h' => Yields.pure ⟨h, h'⟩))

/-- The range of an item, with the defaults of a star or a single number. -/
theorem itemRange_bounds (order : rule.minimum ≤ rule.maximum) (rangeText : List Char)
    (stepped : Bool) :
    Yields (fun range => (rule.minimum ≤ range.1 ∧ range.1 ≤ rule.maximum) ∧
      rule.minimum ≤ range.2.1 ∧ range.2.1 ≤ rule.maximum) (itemRange p rule rangeText stepped) := by
  unfold itemRange
  split
  · exact Yields.ok ⟨⟨le_rfl, order⟩, order, le_rfl⟩
  · refine Yields.bind (parseSimpleRange_bounds _) ?_
    rintro ⟨start, last, hasRange⟩ ⟨hs, hl⟩
    refine Yields.pure ⟨hs, ?_⟩
    dsimp only
    split
    · exact ⟨order, le_rfl⟩
    · exact hl

/-- What an item expands to are values of the field. -/
theorem expandSimpleItem_values (order : rule.minimum ≤ rule.maximum) (item : List Char) :
    Yields (fun expanded => ∀ n ∈ expanded.1, n ∈ rule.allValues) (expandSimpleItem p rule item) := by
  refine Yields.bind (Yields.trivial _) ?_
  rintro ⟨rangeText, step, stepped⟩ -
  refine Yields.bind (itemRange_bounds order _ _) ?_
  rintro ⟨start, stop, fullRange⟩ ⟨hs, hl⟩
  exact Yields.pure (fun n mem => mem_cyclicValues hs hl mem)

/-- A parsed field has its values in the field, all of them once it is a wildcard. -/
theorem fieldOf_values {allValues : List Int} {items : List (List Int × Bool)} {message : String}
    (h : ∀ item ∈ items, ∀ n ∈ item.1, n ∈ allValues) :
    Yields (fun f => (∀ n ∈ f.values.members, n ∈ allValues) ∧
      (f.wildcard = true → ∀ n ∈ allValues, n ∈ f.values.members))
      (fieldOf allValues items message) := by
  have inside : ∀ n ∈ (if items.any (fun item => item.2) then allValues
      else items.flatMap (fun item => item.1)), n ∈ allValues := by
    intro n mem
    split at mem
    · exact mem
    · obtain ⟨item, listed, mem⟩ := List.mem_flatMap.mp mem
      exact h item listed n mem
  unfold fieldOf
  dsimp only
  by_cases empty : (if items.any (fun item => item.2) then allValues
      else items.flatMap (fun item => item.1)).isEmpty = true
  · rw [if_pos empty]
    exact Yields.error
  · rw [if_neg empty]
    refine Yields.ok ⟨?_, ?_⟩
    · intro n mem
      exact inside n (IntSet.mem_members_ofList.mp mem)
    · intro wild n mem
      rw [IntSet.mem_members_ofList, if_pos wild]
      exact mem

/-- What a field parses to are values of the field, and all of them for a wildcard. -/
theorem parseSimpleField_values (order : rule.minimum ≤ rule.maximum) (expression : List Char) :
    Yields (fun f => (∀ n ∈ f.values.members, n ∈ rule.allValues) ∧
      (f.wildcard = true → ∀ n ∈ rule.allValues, n ∈ f.values.members))
      (parseSimpleField p rule expression) := by
  refine Yields.bind (Yields.trivial _) ?_
  intro items _
  refine Yields.bind (Yields.mapM (fun item _ => expandSimpleItem_values order item)) ?_
  intro expanded values
  exact fieldOf_values values

/-- A field whose values are an interval parses within it. -/
theorem parseSimpleField_within {low high : Int} (order : rule.minimum ≤ rule.maximum)
    (all : ∀ n, n ∈ rule.allValues ↔ low ≤ n ∧ n ≤ high) (expression : List Char) :
    Yields (fun f => f.Within low high) (parseSimpleField p rule expression) := by
  refine (parseSimpleField_values order expression).mono ?_
  intro f values
  exact ⟨fun n mem => (all n).mp (values.1 n mem),
    fun wild n above below => values.2 wild n ((all n).mpr ⟨above, below⟩)⟩

theorem mem_secondsRule (n : Int) : n ∈ secondsRule.allValues ↔ 0 ≤ n ∧ n ≤ 59 := by
  simp [FieldRule.allValues, secondsRule]

/-- The values of the hours; 24 stands for 0. -/
theorem mem_hoursRule (n : Int) : n ∈ hoursRule.allValues ↔ 0 ≤ n ∧ n ≤ 23 := by
  simp only [FieldRule.allValues, hoursRule, List.mem_map, IntSet.mem_range, normalizeHour]
  constructor
  · rintro ⟨m, inside, rfl⟩
    split <;> omega
  · intro inside
    exact ⟨n, by omega, if_neg (by omega)⟩

end Fields

/-! ## Schedules -/

section Schedules

variable {p : Platform}

/-- An accepted schedule has fields of a clock. -/
theorem parseFields_clock {seconds : Field} (within : seconds.Within 0 59)
    (minute hour monthday month weekday : List Char) (timezone : Option TzInfo) :
    Yields (fun s => s.ClockFields ∧ s.timezone = timezone)
      (parseFields p seconds minute hour monthday month weekday timezone) := by
  refine Yields.bind (Yields.trivial _) ?_
  rintro ⟨monthdayText, monthdayAnd⟩ -
  refine Yields.bind (Yields.trivial _) ?_
  rintro ⟨weekdayText, weekdayAnd⟩ -
  refine Yields.bind (parseSimpleField_within (by decide) mem_secondsRule _) ?_
  intro minutes minutesWithin
  refine Yields.bind (parseSimpleField_within (by decide) mem_hoursRule _) ?_
  intro hours hoursWithin
  refine Yields.bind (Yields.trivial _) ?_
  intro dayOfMonth _
  refine Yields.bind (Yields.trivial _) ?_
  intro months _
  refine Yields.bind (Yields.trivial _) ?_
  intro dayOfWeek _
  refine Yields.bind (Yields.trivial _) ?_
  intro possible _
  exact Yields.pure ⟨⟨within, minutesWithin, hoursWithin⟩, rfl⟩

theorem within_zero : (⟨IntSet.ofList [0], false⟩ : Field).Within 0 59 := by
  refine ⟨?_, ?_⟩
  · intro n mem
    rw [IntSet.mem_members_ofList, List.mem_singleton] at mem
    omega
  · intro wild
    cases wild

/-- A parsed cron expression has a clock's fields, and the time zone its last word names. -/
theorem parseCronSchedule_clock (schedule : List Char) :
    Yields (fun s => s.ClockFields ∧ ∃ fields, splitCronSchedule p schedule = .ok (fields, s.timezone))
      (parseCronSchedule p schedule) := by
  unfold parseCronSchedule
  cases split : splitCronSchedule p schedule with
  | error e => exact Yields.error
  | ok result =>
      obtain ⟨fields, timezone⟩ := result
      refine Yields.mono (P := fun s => s.ClockFields ∧ s.timezone = timezone) ?_ ?_
      · rintro s ⟨clock, rfl⟩
        exact ⟨clock, fields, rfl⟩
      · simp only [bind, Except.bind]
        split
        · exact parseFields_clock within_zero _ _ _ _ _ _
        · exact Yields.bind (parseSimpleField_within (by decide) mem_secondsRule _)
            (fun seconds within => parseFields_clock within _ _ _ _ _ _)
        · exact Yields.error

end Schedules

end DjQueue.Crontab
