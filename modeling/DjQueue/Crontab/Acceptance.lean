import DjQueue.Crontab.Transitions

/-!
# Accepted schedules and their windows

A search raises nothing exactly when some schedule of the union has a run in its window.  Validation
looks at days of the month and month lengths only, so a schedule no date satisfies is accepted.
-/

namespace DjQueue.Crontab

/-! ## Whether a search raises -/

/-- Some schedule of the union runs in the window of a search from the base. -/
def HasRun (schedules : List Schedule) (base : Moment) (tz : TzInfo) (d : Direction) : Prop :=
  ∃ s ∈ schedules, ∃ u, Run s (awareTimeline s base tz) d u

section Raises

variable {schedules : List Schedule} {base : Moment} {tz : TzInfo} {d : Direction}

theorem best_isSome {runs : List Moment} (some : runs ≠ []) : ∃ run, best d runs = .some run := by
  cases runs with
  | nil => exact absurd rfl some
  | cons m rest => exact ⟨_, rfl⟩

/-- Inside the years a union returns a run exactly if it has one. -/
theorem findRun_returns_iff (fields : ∀ s ∈ schedules, s.ClockFields)
    (aware : base.tzinfo = some tz) (range : SearchInRange base.instant d) :
    (∃ r, findRun schedules base d = .ok r) ↔ HasRun schedules base tz d := by
  constructor
  · rintro ⟨r, run⟩
    obtain ⟨runs, candidates, chosen⟩ := of_findRun run
    obtain ⟨s, mem, u, leads, -⟩ :=
      (leads_of_mem fields aware range candidates).1 r (best_spec chosen).1
    exact ⟨s, mem, u, leads.run⟩
  · rintro ⟨s, mem, u, run⟩
    obtain ⟨runs, candidates⟩ := candidateRuns_ok fields aware range
    have inside : ∃ v, shownIn tz v ∈ runs := by
      rcases findRunForSchedule_aware (fields s mem) aware range with ⟨v, leads, -⟩ | ⟨none, -⟩
      · exact ⟨v, (leads_of_mem fields aware range candidates).2 s mem v leads⟩
      · exact absurd run (none u)
    obtain ⟨v, inside⟩ := inside
    obtain ⟨r, chosen⟩ := best_isSome (d := d) (List.ne_nil_of_mem inside)
    exact ⟨r, findRun_of_best candidates chosen⟩

end Raises

/-! ## Bases of two centuries -/

/-- A UTC base in the years 1900 to 2100. -/
structure CommonBase (base : Moment) : Prop where
  utc : base.tzinfo = some .utc
  low : 1900 ≤ (Calendar.civil (dateOf base.wall)).year
  high : (Calendar.civil (dateOf base.wall)).year ≤ 2100

section CommonBase

variable {base : Moment} {d : Direction}

/-- A base in UTC reads as its instant. -/
theorem CommonBase.instant (common : CommonBase base) : base.instant = base.wall := by
  simp [Moment.instant, common.utc, TzInfo.utcoffset, TzInfo.utc]

/-- The dates of the bases lie in the middle of the calendar. -/
theorem CommonBase.date (common : CommonBase base) :
    693595 < dateOf base.wall ∧ dateOf base.wall ≤ 767100 := by
  obtain ⟨-, after, notAfter⟩ := Calendar.ordinal_civil (dateOf base.wall)
  have low := common.low
  have high := common.high
  simp only [Calendar.daysBeforeYear] at after notAfter
  omega

/-- The search stays inside the years, from the base or a microsecond after it. -/
theorem CommonBase.inRange (common : CommonBase base) (d : Direction) :
    SearchInRange base.instant d ∧ SearchInRange (base.wall + 1) d := by
  have date := common.date
  have moved := dateOf_add base.wall 1 (by decide)
  have window : (maxSearchDays : Int) = 146400 := rfl
  have last : maxOrdinal = 3652059 := rfl
  rw [common.instant]
  unfold SearchInRange DateInRange
  rw [window, last]
  cases d <;> simp only [Direction.sign] <;> omega

/-- A microsecond after the base. -/
def justAfter (base : Moment) : Moment := ⟨base.wall + 1, false, base.tzinfo⟩

/-- A microsecond later is still a moment. -/
theorem CommonBase.addMicroseconds (common : CommonBase base) :
    base.addMicroseconds 1 = .ok (justAfter base) := by
  have date := common.date
  have moved := dateOf_add base.wall 1 (by decide)
  have last : maxOrdinal = 3652059 := rfl
  unfold Moment.addMicroseconds
  rw [checkedWall_ok]
  · rfl
  · unfold DateInRange
    rw [last]
    omega

/-- A microsecond later, as an instant. -/
theorem CommonBase.instant_justAfter (common : CommonBase base) :
    (justAfter base).instant = base.wall + 1 := by
  simp [justAfter, Moment.instant, common.utc, TzInfo.utcoffset, TzInfo.utc]

end CommonBase

/-! ## A day that never comes -/

/-- Midnight of the first of a month, if that is the fifth Monday of the month. -/
def fifthMondayTheFirst : String := "0 0 1& * MON#5"

/-- The parse of the schedule. -/
def fifthMondayTheFirstSchedules : List Schedule :=
  (parseSchedule plainPlatform fifthMondayTheFirst).toOption.getD []

/-- A base in the year the schedule is asked in. -/
def newYear2026 : Moment := ⟨wallOf (Calendar.ordinal ⟨2026, 1, 1⟩) 0 0 0, false, some .utc⟩

/-- The first day of a month is no fifth weekday of it, from neither end. -/
theorem not_fifth_of_first {date : Int} (first : (Calendar.civil date).day = 1) :
    weekdayHashMatches date 5 = false := by
  have length := Calendar.monthLength_bounds (Calendar.civil date).year (Calendar.civil date).month
  simp only [weekdayHashMatches, monthLengthOf, first, Bool.or_eq_false_iff, beq_eq_false_iff_ne,
    ne_eq]
  omega

/-- No date is a first and a fifth Monday at once. -/
theorem fifthMondayTheFirst_impossible :
    ∀ s ∈ fifthMondayTheFirstSchedules, ∀ date, s.matchesDate date = false := by
  intro s mem date
  have all : fifthMondayTheFirstSchedules.all (fun s => s.dayAnd && !s.dayOfMonth.wildcard &&
      s.dayOfMonth.values.members == [1] && !s.dayOfWeek.wildcard &&
      s.dayOfWeek.specs == [⟨1, some 5, none⟩]) = true := by decide +kernel
  have own := List.all_eq_true.mp all s mem
  simp only [Bool.and_eq_true, Bool.not_eq_true', beq_iff_eq] at own
  obtain ⟨⟨⟨⟨both, dayListed⟩, day⟩, weekdayListed⟩, weekday⟩ := own
  rw [← Bool.not_eq_true]
  intro matching
  simp only [Schedule.matchesDate, Schedule.matchesDay, dayListed, weekdayListed, both,
    Bool.and_eq_true, Bool.false_eq_true, if_false, if_true, Bool.and_self] at matching
  obtain ⟨-, onDay, onWeekday⟩ := matching
  simp only [Schedule.matchesDayOfMonth, dayListed, day, List.any_cons, List.any_nil,
    Bool.or_false, Bool.false_or, Bool.or_eq_true, Bool.and_eq_true, decide_eq_true_eq,
    beq_iff_eq] at onDay
  simp only [WeekdayField.matches, weekdayListed, weekday, List.any_cons, List.any_nil,
    Bool.or_false, Bool.false_or, WeekdaySpec.matches, Bool.and_eq_true, Option.any_some,
    Option.any_none, Option.isNone_some, Bool.false_and] at onWeekday
  rw [not_fifth_of_first (by omega)] at onWeekday
  exact Bool.false_ne_true onWeekday.2

end DjQueue.Crontab
