import DjQueue.Crontab.Datetime
import Mathlib.Data.List.Sort
import Mathlib.Data.List.Dedup
import Mathlib.Data.List.Lex
import Mathlib.Data.Int.Order.Basic

/-!
# Parsed schedules

The fields of a cron expression as sets of numbers, and which wall clock readings they match.
-/

namespace DjQueue.Crontab

/-! ## Sets of numbers -/

/-- `frozenset[int]`, by its members in ascending order. -/
structure IntSet where
  members : List Int
  ascending : members.Pairwise (· < ·)
deriving DecidableEq

namespace IntSet

/-- A sorted list without duplicates is strictly ascending. -/
theorem ascending_insertionSort_dedup (l : List Int) :
    (l.dedup.insertionSort (· ≤ ·)).Pairwise (· < ·) := by
  have sorted : (l.dedup.insertionSort (· ≤ ·)).Pairwise (· ≤ ·) :=
    List.pairwise_insertionSort (· ≤ ·) _
  have distinct : (l.dedup.insertionSort (· ≤ ·)).Pairwise (· ≠ ·) :=
    (List.perm_insertionSort (· ≤ ·) l.dedup).nodup_iff.mpr (List.nodup_dedup l)
  exact (sorted.and distinct).imp (fun h => lt_of_le_of_ne h.1 h.2)

/-- The set of these integers, in order. -/
def ofList (l : List Int) : IntSet := ⟨l.dedup.insertionSort (· ≤ ·), ascending_insertionSort_dedup l⟩

/-- Whether an integer is in the set. -/
def contains (s : IntSet) (n : Int) : Bool := s.members.contains n

/-- `range(low, high + 1)` -/
def range (low high : Int) : List Int :=
  (List.range (high + 1 - low).toNat).map (fun i : Nat => low + i)

/-- The members are the integers of the list. -/
@[simp] theorem mem_members_ofList {l : List Int} {n : Int} : n ∈ (ofList l).members ↔ n ∈ l := by
  rw [ofList, List.mem_insertionSort, List.mem_dedup]

@[simp] theorem mem_range {low high n : Int} : n ∈ range low high ↔ low ≤ n ∧ n ≤ high := by
  simp only [range, List.mem_map, List.mem_range]
  constructor
  · rintro ⟨i, small, rfl⟩
    omega
  · rintro ⟨above, below⟩
    exact ⟨(n - low).toNat, by omega, by omega⟩

end IntSet

/-! ## Fields -/

/-- `_Field` -/
structure Field where
  values : IntSet
  wildcard : Bool
deriving DecidableEq

/-- `_Field.matches` -/
def Field.matches (f : Field) (value : Int) : Bool := f.wildcard || f.values.contains value

/-- `modulo` is `(divisor, offset)`. -/
structure WeekdaySpec where
  day : Int
  nth : Option Int := none
  modulo : Option (Int × Int) := none
deriving DecidableEq

/-- `_WeekdayField` -/
structure WeekdayField where
  specs : List WeekdaySpec
  wildcard : Bool
deriving DecidableEq

/-- `_Schedule`; `minute`, `hour` and the others are in the plural here where they hold several. -/
structure Schedule where
  seconds : Field
  minutes : Field
  hours : Field
  dayOfMonth : Field
  months : Field
  dayOfWeek : WeekdayField
  dayAnd : Bool
  timezone : Option TzInfo

/-! ## Dates -/

/-- `date(2018, 12, 31).toordinal()` -/
def referenceMonday : Int := 737059

/-- The month of a date. -/
def monthOfDate (date : Int) : Int := (Calendar.civil date).month

/-- The length of its month. -/
def monthLengthOf (date : Int) : Int :=
  Calendar.monthLength (Calendar.civil date).year (Calendar.civil date).month

/-- Sunday is 0. -/
def cronWeekday (date : Int) : Int := (Calendar.weekday date + 1) % 7

/-- `_weekday_hash_matches`: the place of the date among its weekday, from either end of the month.
-/
def weekdayHashMatches (date nth : Int) : Bool :=
  let day := (Calendar.civil date).day
  let fromStart := (day - 1) / 7 + 1
  let fromEnd := -((monthLengthOf date - day) / 7 + 1)
  nth == fromStart || nth == fromEnd

/-- `_weekday_modulo_matches`: the weeks since a Monday, by their remainder. -/
def weekdayModuloMatches (date : Int) (modulo : Int × Int) : Bool :=
  let relativeWeek := (date - referenceMonday) / 7
  relativeWeek % modulo.1 == modulo.2 % modulo.1

/-- The part of `_WeekdayField.matches` for one rule. -/
def WeekdaySpec.matches (spec : WeekdaySpec) (date : Int) : Bool :=
  spec.day == cronWeekday date &&
    (spec.nth.any (weekdayHashMatches date) || spec.modulo.any (weekdayModuloMatches date) ||
      (spec.nth.isNone && spec.modulo.isNone))

/-- `_WeekdayField.matches` -/
def WeekdayField.matches (f : WeekdayField) (date : Int) : Bool :=
  f.wildcard || f.specs.any (fun spec => spec.matches date)

namespace Schedule

/-- `_Schedule._matches_day_of_month` -/
def matchesDayOfMonth (s : Schedule) (date : Int) : Bool :=
  let day := (Calendar.civil date).day
  s.dayOfMonth.wildcard ||
    s.dayOfMonth.values.members.any (fun value =>
      (decide (0 < value) && day == value) ||
        (decide (value < 0) && day == monthLengthOf date + 1 + value))

/-- `_Schedule._matches_day` -/
def matchesDay (s : Schedule) (date : Int) : Bool :=
  if s.dayOfMonth.wildcard && s.dayOfWeek.wildcard then true
  else if s.dayOfMonth.wildcard then s.dayOfWeek.matches date
  else if s.dayOfWeek.wildcard then s.matchesDayOfMonth date
  else if s.dayAnd then s.matchesDayOfMonth date && s.dayOfWeek.matches date
  else s.matchesDayOfMonth date || s.dayOfWeek.matches date

/-- `_matches_date` -/
def matchesDate (s : Schedule) (date : Int) : Bool :=
  s.months.matches (monthOfDate date) && s.matchesDay date

/-- The readings a schedule runs at: whole seconds whose second, minute, hour and month are in the
fields, on a day of the day rule. -/
def MatchesWall (s : Schedule) (wall : Int) : Prop :=
  microsecondOf wall = 0 ∧ s.seconds.matches (secondOf wall) = true ∧
    s.minutes.matches (minuteOf wall) = true ∧ s.hours.matches (hourOf wall) = true ∧
    s.matchesDate (dateOf wall) = true

instance (s : Schedule) (wall : Int) : Decidable (s.MatchesWall wall) :=
  inferInstanceAs (Decidable (_ ∧ _))

end Schedule

/-- A field whose numbers lie in `[low, high]`, and fill it if it is a wildcard. -/
structure Field.Within (f : Field) (low high : Int) : Prop where
  bound : ∀ n ∈ f.values.members, low ≤ n ∧ n ≤ high
  full : f.wildcard = true → ∀ n, low ≤ n → n ≤ high → n ∈ f.values.members

/-- The fields of the clock hold readings of a clock. -/
structure Schedule.ClockFields (s : Schedule) : Prop where
  seconds : s.seconds.Within 0 59
  minutes : s.minutes.Within 0 59
  hours : s.hours.Within 0 23

/-- A field within bounds matches the values it lists. -/
theorem Field.Within.matches_iff {f : Field} {low high n : Int} (h : f.Within low high)
    (inside : low ≤ n ∧ n ≤ high) : f.matches n = true ↔ n ∈ f.values.members := by
  unfold Field.matches IntSet.contains
  rw [Bool.or_eq_true, List.contains_iff_mem]
  constructor
  · rintro (wild | mem)
    · exact h.full wild n inside.1 inside.2
    · exact mem
  · exact Or.inr

end DjQueue.Crontab
