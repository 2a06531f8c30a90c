import DjQueue.Crontab.Completeness

/-!
# Which accepted schedules can run

The calendar has every day of every month on every weekday, so of the day rules the parser lets
through only one kind is impossible: a day of the month and a weekday that must both hold, with
positions in the month that exclude each other.  A weekday counted in weeks, and a clock of its own
that skips readings, can still miss the window of a search.
-/

namespace DjQueue.Crontab

open Relational

/-! ## The day fields of a parsed schedule -/

/-- A weekday of the week, at a position the month can have. -/
structure WeekdaySpec.Within (spec : WeekdaySpec) : Prop where
  day : 0 ≤ spec.day ∧ spec.day ≤ 6
  nth : ∀ nth ∈ spec.nth, (1 ≤ nth ∧ nth ≤ 5) ∨ (-5 ≤ nth ∧ nth ≤ -1)

/-- What the parser leaves in the month and the two day fields. -/
structure Schedule.DayFields (s : Schedule) : Prop where
  months : s.months.Within 1 12
  someMonth : s.months.values.members ≠ []
  weekdays : ∀ spec ∈ s.dayOfWeek.specs, spec.Within
  someWeekday : s.dayOfWeek.wildcard = false → s.dayOfWeek.specs ≠ []
  possible : ensurePossibleDayOfMonth s = .ok ()

section Parsing

variable {p : Platform}

theorem mem_monthsRule (n : Int) : n ∈ monthsRule.allValues ↔ 1 ≤ n ∧ n ≤ 12 := by
  simp [FieldRule.allValues, monthsRule]

theorem mem_weekdaysRule {n : Int} (h : n ∈ weekdaysRule.allValues) : 0 ≤ n ∧ n ≤ 6 := by
  simp only [FieldRule.allValues, weekdaysRule, List.mem_map, IntSet.mem_range,
    normalizeDayOfWeek] at h
  obtain ⟨m, inside, rfl⟩ := h
  split <;> omega

/-- A weekday is a number from 0 to 6. -/
theorem parseWeekdayBound_within (value : List Char) :
    Yields (fun day => 0 ≤ day ∧ day ≤ 6) (parseWeekdayBound p value) := by
  refine Yields.functorMap (parseSimpleBound_bounds _) ?_
  intro number bounds
  simp only [weekdaysRule] at bounds
  unfold normalizeDayOfWeek
  split <;> omega

/-- The index of a hash is one of five from either end. -/
theorem parseHashNth_within (nthText : List Char) :
    Yields (fun nth => (1 ≤ nth ∧ nth ≤ 5) ∨ (-5 ≤ nth ∧ nth ≤ -1)) (parseHashNth p nthText) := by
  unfold parseHashNth
  dsimp only
  split
  · exact Yields.ok (Or.inr (by omega))
  · unfold parseHashIndex
    split
    · exact Yields.error
    · refine Yields.bind (Yields.trivial _) (fun number _ => ?_)
      split
      · exact Yields.error
      · exact Yields.pure (by omega)

theorem parseWeekdayHash_within (item : List Char) :
    Yields WeekdaySpec.Within (parseWeekdayHash p item) := by
  unfold parseWeekdayHash
  split
  · exact Yields.error
  · refine Yields.bind (parseWeekdayBound_within _) (fun day inWeek => ?_)
    refine Yields.bind (parseHashNth_within _) (fun nth inMonth => ?_)
    refine Yields.pure ⟨inWeek, ?_⟩
    intro nth' mem
    rw [← Option.mem_some.mp mem]
    exact inMonth

theorem parseWeekdayModulo_within (item : List Char) :
    Yields WeekdaySpec.Within (parseWeekdayModulo p item) := by
  unfold parseWeekdayModulo
  split
  · exact Yields.error
  · dsimp only
    split
    · exact Yields.error
    · refine Yields.bind (Yields.trivial _) (fun modulo _ => ?_)
      refine Yields.bind (Yields.trivial _) (fun offset _ => ?_)
      split
      · exact Yields.error
      · refine Yields.bind (parseWeekdayBound_within _) (fun day inWeek => ?_)
        exact Yields.pure ⟨inWeek, fun nth mem => absurd mem (by simp)⟩

theorem parseWeekdayItem_within (item : List Char) :
    Yields (fun parsed => ∀ spec ∈ parsed.1, spec.Within) (parseWeekdayItem p item) := by
  unfold parseWeekdayItem
  split
  · refine Yields.bind (parseWeekdayHash_within item) (fun spec own => Yields.pure ?_)
    intro spec' mem
    rw [List.mem_singleton.mp mem]
    exact own
  · split
    · refine Yields.bind (parseWeekdayModulo_within item) (fun spec own => Yields.pure ?_)
      intro spec' mem
      rw [List.mem_singleton.mp mem]
      exact own
    · refine Yields.bind (parseSimpleField_values (by decide) item) (fun field values => ?_)
      split
      · exact Yields.pure (fun spec mem => absurd mem List.not_mem_nil)
      · refine Yields.pure ?_
        intro spec mem
        obtain ⟨value, inside, rfl⟩ := List.mem_map.mp mem
        exact ⟨mem_weekdaysRule (values.1 value inside), fun nth own => absurd own (by simp)⟩

/-- The rules of the field; without a wildcard there is one. -/
theorem parseWeekdayField_within (expression : List Char) :
    Yields (fun f => (∀ spec ∈ f.specs, spec.Within) ∧ (f.wildcard = false → f.specs ≠ []))
      (parseWeekdayField p expression) := by
  refine Yields.bind (Yields.trivial _) (fun items _ => ?_)
  refine Yields.bind (Yields.mapM (fun item _ => parseWeekdayItem_within item)) ?_
  intro parsed within
  dsimp only
  split
  · exact Yields.pure ⟨fun spec mem => absurd mem List.not_mem_nil, fun listed => by cases listed⟩
  · split
    · exact Yields.error
    · rename_i some
      refine Yields.pure ⟨?_, ?_⟩
      · intro spec mem
        rw [List.mem_insertionSort, List.mem_dedup] at mem
        obtain ⟨item, listed, mem⟩ := List.mem_flatMap.mp mem
        exact within item listed spec mem
      · intro _ empty
        have sorted := List.perm_insertionSort
          (fun a b => weekdaySpecSortKey a ≤ weekdaySpecSortKey b)
          (parsed.flatMap (fun item => item.1)).dedup
        rw [show List.insertionSort _ _ = [] from empty] at sorted
        exact some (List.isEmpty_iff.mpr sorted.nil_eq.symm)

/-- An accepted schedule has rules of a calendar. -/
theorem parseFields_dayFields {seconds : Field}
    (minute hour monthday month weekday : List Char) (timezone : Option TzInfo) :
    Yields Schedule.DayFields
      (parseFields p seconds minute hour monthday month weekday timezone) := by
  refine Yields.bind (Yields.trivial _) ?_
  rintro ⟨monthdayText, monthdayAnd⟩ -
  refine Yields.bind (Yields.trivial _) ?_
  rintro ⟨weekdayText, weekdayAnd⟩ -
  refine Yields.bind (Yields.trivial _) (fun minutes _ => ?_)
  refine Yields.bind (Yields.trivial _) (fun hours _ => ?_)
  refine Yields.bind (Yields.trivial _) (fun dayOfMonth _ => ?_)
  refine Yields.bind ((parseSimpleField_within (by decide) mem_monthsRule _).and
    (parseSimpleField_ne_nil _ _)) ?_
  rintro months ⟨within, someMonth⟩
  refine Yields.bind (parseWeekdayField_within _) ?_
  rintro dayOfWeek ⟨weekdays, someWeekday⟩
  intro s eq
  obtain ⟨⟨⟩, possible, eq⟩ := bind_eq_ok eq
  cases eq
  exact ⟨within, someMonth, weekdays, someWeekday, possible⟩

theorem parseCronSchedule_dayFields (schedule : List Char) :
    Yields Schedule.DayFields (parseCronSchedule p schedule) := by
  refine Yields.bind (Yields.trivial _) ?_
  rintro ⟨fields, timezone⟩ -
  dsimp only
  split
  · exact parseFields_dayFields _ _ _ _ _ _
  · exact Yields.bind (Yields.trivial _) (fun seconds _ => parseFields_dayFields _ _ _ _ _ _)
  · exact Yields.error

end Parsing

/-! ## Positions in a month -/

/-- The weekday of a day at this place in a month of this length has the position the spec asks
for, counted from the first or from the last. -/
def WeekdaySpec.FallsOn (spec : WeekdaySpec) (length day : Int) : Prop :=
  ∀ nth ∈ spec.nth, nth = (day - 1) / 7 + 1 ∨ nth = -((length - day) / 7 + 1)

instance (spec : WeekdaySpec) (length day : Int) : Decidable (spec.FallsOn length day) :=
  inferInstanceAs (Decidable (∀ nth ∈ spec.nth, _))

/-- A day of the month and a weekday are given, and both must hold. -/
def Schedule.CombinesDays (s : Schedule) : Prop :=
  s.dayAnd = true ∧ s.dayOfMonth.wildcard = false ∧ s.dayOfWeek.wildcard = false

/-- Some listed day of some listed month, of a leap or a common year, has the position in the month
that some weekday asks for. -/
def Schedule.DaysAgree (s : Schedule) : Prop :=
  ∃ leap : Bool, ∃ month ∈ s.months.values.members,
    ∃ day ∈ IntSet.range 1 (Calendar.monthDays leap month),
      (∃ value ∈ s.dayOfMonth.values.members,
        value = day ∨ value = day - (Calendar.monthDays leap month + 1)) ∧
      ∃ spec ∈ s.dayOfWeek.specs, spec.FallsOn (Calendar.monthDays leap month) day

instance (s : Schedule) : Decidable s.CombinesDays := inferInstanceAs (Decidable (_ ∧ _))

instance (s : Schedule) : Decidable s.DaysAgree := inferInstanceAs (Decidable (∃ _ : Bool, _))

section Dates

variable {s : Schedule} {date : Int}

/-- A weekday rule that counts no weeks asks for a weekday and its place in the month. -/
theorem weekdaySpec_matches_iff {spec : WeekdaySpec} (own : spec.modulo = none) :
    spec.matches date = true ↔ spec.day = cronWeekday date ∧
      spec.FallsOn (monthLengthOf date) (Calendar.civil date).day := by
  unfold WeekdaySpec.matches WeekdaySpec.FallsOn
  rw [own]
  cases spec.nth with
  | none => simp
  | some nth => simp [weekdayHashMatches]

/-- A day of the month is counted from either end. -/
theorem matchesDayOfMonth_iff (listed : s.dayOfMonth.wildcard = false) :
    s.matchesDayOfMonth date = true ↔ ∃ value ∈ s.dayOfMonth.values.members,
      value = (Calendar.civil date).day ∨
        value = (Calendar.civil date).day - (monthLengthOf date + 1) := by
  have day := (Calendar.civil_valid date).day
  have length : monthLengthOf date =
      Calendar.monthLength (Calendar.civil date).year (Calendar.civil date).month := rfl
  unfold Schedule.matchesDayOfMonth
  rw [listed, Bool.false_or, List.any_eq_true]
  refine exists_congr (fun value => and_congr_right (fun _ => ?_))
  simp only [Bool.or_eq_true, Bool.and_eq_true, decide_eq_true_eq, beq_iff_eq]
  omega

theorem dayOfWeek_matches_iff (noModulo : s.NoModulo) (listed : s.dayOfWeek.wildcard = false) :
    s.dayOfWeek.matches date = true ↔ ∃ spec ∈ s.dayOfWeek.specs,
      spec.day = cronWeekday date ∧
        spec.FallsOn (monthLengthOf date) (Calendar.civil date).day := by
  unfold WeekdayField.matches
  rw [listed, Bool.false_or, List.any_eq_true]
  exact exists_congr (fun spec => and_congr_right
    (fun mem => weekdaySpec_matches_iff (noModulo spec mem)))

theorem months_matches_iff (fields : s.DayFields) :
    s.months.matches (monthOfDate date) = true ↔
      (Calendar.civil date).month ∈ s.months.values.members :=
  fields.months.matches_iff (Calendar.civil_valid date).month

/-- Each day of a month of either kind falls on each weekday of cron. -/
theorem exists_cron_date (leap : Bool) {month day weekday : Int}
    (inMonths : 1 ≤ month ∧ month ≤ 12)
    (inMonth : 1 ≤ day ∧ day ≤ Calendar.monthDays leap month)
    (inWeek : 0 ≤ weekday ∧ weekday ≤ 6) :
    ∃ date, (Calendar.civil date).month = month ∧ (Calendar.civil date).day = day ∧
      monthLengthOf date = Calendar.monthDays leap month ∧ weekday = cronWeekday date := by
  obtain ⟨date, onMonth, onDay, kind, onWeekday⟩ := Calendar.exists_date leap inMonths inMonth
    (show 0 ≤ (weekday + 6) % 7 ∧ (weekday + 6) % 7 ≤ 6 by omega)
  refine ⟨date, onMonth, onDay, ?_, ?_⟩
  · unfold monthLengthOf
    rw [Calendar.monthLength_eq, onMonth, kind]
  · unfold cronWeekday
    omega

/-- Where both day fields must hold, some date satisfies them exactly if their positions agree. -/
theorem exists_date_iff_daysAgree (fields : s.DayFields) (noModulo : s.NoModulo)
    (combines : s.CombinesDays) : (∃ date, s.matchesDate date = true) ↔ s.DaysAgree := by
  obtain ⟨both, listed, listed'⟩ := combines
  have split (date : Int) : s.matchesDate date = true ↔
      (Calendar.civil date).month ∈ s.months.values.members ∧
        s.matchesDayOfMonth date = true ∧ s.dayOfWeek.matches date = true := by
    unfold Schedule.matchesDate Schedule.matchesDay
    rw [Bool.and_eq_true, months_matches_iff fields, listed, listed', both]
    simp
  simp only [split, matchesDayOfMonth_iff listed, dayOfWeek_matches_iff noModulo listed']
  constructor
  · rintro ⟨date, inMonths, onDay, spec, mem, -, falls⟩
    have day := (Calendar.civil_valid date).day
    exact ⟨Calendar.isLeap (Calendar.civil date).year, _, inMonths, _,
      IntSet.mem_range.mpr day, onDay, spec, mem, falls⟩
  · rintro ⟨leap, month, inMonths, day, inMonth, onDay, spec, mem, falls⟩
    obtain ⟨date, onMonth, on, length, weekday⟩ := exists_cron_date leap
      (fields.months.bound month inMonths) (IntSet.mem_range.mp inMonth)
      (fields.weekdays spec mem).day
    refine ⟨date, onMonth ▸ inMonths, ?_, spec, mem, weekday, ?_⟩
    · rw [on, length]
      exact onDay
    · rw [on, length]
      exact falls

/-- The day in a month of 29 days or more that has the position. -/
theorem exists_day_of_nth {spec : WeekdaySpec} (own : spec.Within) {length : Int}
    (long : 29 ≤ length) : ∃ day, (1 ≤ day ∧ day ≤ length) ∧ spec.FallsOn length day := by
  cases position : spec.nth with
  | none => exact ⟨1, by omega, fun nth mem => absurd (position ▸ mem) (by simp)⟩
  | some nth =>
      rcases own.nth nth position with fromStart | fromEnd
      · refine ⟨7 * (nth - 1) + 1, by omega, ?_⟩
        intro nth' mem
        cases Option.mem_unique mem position
        exact Or.inl (by omega)
      · refine ⟨length - 7 * (-nth - 1), by omega, ?_⟩
        intro nth' mem
        cases Option.mem_unique mem position
        exact Or.inr (by omega)

/-- Some date of a listed month is one of the listed weekdays. -/
theorem exists_weekday_date (fields : s.DayFields) (noModulo : s.NoModulo)
    (listed : s.dayOfWeek.wildcard = false) :
    ∃ date, s.months.matches (monthOfDate date) = true ∧ s.dayOfWeek.matches date = true := by
  obtain ⟨month, inMonths⟩ := List.exists_mem_of_ne_nil _ fields.someMonth
  obtain ⟨spec, mem⟩ := List.exists_mem_of_ne_nil _ (fields.someWeekday listed)
  have bounds := fields.months.bound month inMonths
  have long := Calendar.monthDays_leap month
  obtain ⟨day, inMonth, falls⟩ := exists_day_of_nth (fields.weekdays spec mem) long
  obtain ⟨date, onMonth, on, length, weekday⟩ :=
    exists_cron_date true bounds inMonth (fields.weekdays spec mem).day
  refine ⟨date, (months_matches_iff fields).mpr (onMonth ▸ inMonths),
    (dayOfWeek_matches_iff noModulo listed).mpr ⟨spec, mem, weekday, ?_⟩⟩
  rw [on, length]
  exact falls

/-- Some date of a listed month is one of the listed days, as the parser has checked. -/
theorem exists_monthday_date (fields : s.DayFields) (listed : s.dayOfMonth.wildcard = false)
    (free : s.dayOfWeek.wildcard = true) :
    ∃ date, s.months.matches (monthOfDate date) = true ∧ s.matchesDayOfMonth date = true := by
  have possible := fields.possible
  unfold ensurePossibleDayOfMonth at possible
  rw [listed, free, if_neg Bool.false_ne_true, if_neg (by simp)] at possible
  split at possible
  · rename_i some
    obtain ⟨month, inMonths, some⟩ := List.any_eq_true.mp some
    obtain ⟨value, mem, can⟩ := List.any_eq_true.mp some
    have length : Calendar.monthLength 2024 month = Calendar.monthDays true month := rfl
    unfold dayOfMonthCanMatch at can
    rw [length] at can
    obtain ⟨day, inMonth, falls⟩ : ∃ day, (1 ≤ day ∧ day ≤ Calendar.monthDays true month) ∧
        (value = day ∨ value = day - (Calendar.monthDays true month + 1)) := by
      dsimp only at can
      split at can
      · rename_i positive
        rw [decide_eq_true_eq] at can
        exact ⟨value, by omega, Or.inl rfl⟩
      · rw [Bool.and_eq_true, decide_eq_true_eq, decide_eq_true_eq] at can
        exact ⟨_, can, Or.inr (by omega)⟩
    obtain ⟨date, onMonth, on, length, -⟩ := exists_cron_date true
      (fields.months.bound month inMonths) inMonth ⟨le_rfl, by decide⟩
    refine ⟨date, (months_matches_iff fields).mpr (onMonth ▸ inMonths),
      (matchesDayOfMonth_iff listed).mpr ⟨value, mem, ?_⟩⟩
    rw [on, length]
    exact falls
  · cases possible

/-- Unless both day fields must hold, an accepted schedule without a weekday modulo has a date. -/
theorem exists_date_of_not_combines (fields : s.DayFields) (noModulo : s.NoModulo)
    (free : ¬ s.CombinesDays) : ∃ date, s.matchesDate date = true := by
  unfold Schedule.matchesDate Schedule.matchesDay
  simp only [Bool.and_eq_true]
  cases days : s.dayOfMonth.wildcard with
  | true =>
      cases weekdays : s.dayOfWeek.wildcard with
      | true =>
          obtain ⟨month, inMonths⟩ := List.exists_mem_of_ne_nil _ fields.someMonth
          have bounds := fields.months.bound month inMonths
          have long := Calendar.monthDays_leap month
          obtain ⟨date, onMonth, -⟩ :=
            exists_cron_date true bounds ⟨le_rfl, by omega⟩ ⟨le_rfl, by decide⟩
          exact ⟨date, (months_matches_iff fields).mpr (onMonth ▸ inMonths), by simp⟩
      | false =>
          obtain ⟨date, inMonths, onWeekday⟩ := exists_weekday_date fields noModulo weekdays
          exact ⟨date, inMonths, by simpa using onWeekday⟩
  | false =>
      cases weekdays : s.dayOfWeek.wildcard with
      | true =>
          obtain ⟨date, inMonths, onDay⟩ := exists_monthday_date fields days weekdays
          exact ⟨date, inMonths, by simpa using onDay⟩
      | false =>
          have either : s.dayAnd = false := by
            rw [← Bool.not_eq_true]
            exact fun both => free ⟨both, days, weekdays⟩
          obtain ⟨date, inMonths, onWeekday⟩ := exists_weekday_date fields noModulo weekdays
          exact ⟨date, inMonths, by simp [either, onWeekday]⟩

end Dates

/-! ## Schedules that run -/

/-- One 400-year cycle of the schedule is like any other: no weekday is counted in weeks, and its
clock keeps its distance from UTC. -/
def Schedule.Repeats (s : Schedule) : Prop := s.NoModulo ∧ FixedOffset s.timezone

/-- The clock of the schedule shows a reading of its clock fields on the date, past the base, and
the date is among the `maxSearchDays` dates from the one of the base on. -/
def Schedule.ReadsOn (s : Schedule) (base : Moment) (d : Direction) (date : Int) : Prop :=
  InWindow (awareTimeline s base .utc) d date ∧ ∃ u, d.Before base.instant u ∧
    dateOf ((s.timezone.getD .utc).wallAt u) = date ∧
    microsecondOf ((s.timezone.getD .utc).wallAt u) = 0 ∧
    s.seconds.matches (secondOf ((s.timezone.getD .utc).wallAt u)) = true ∧
    s.minutes.matches (minuteOf ((s.timezone.getD .utc).wallAt u)) = true ∧
    s.hours.matches (hourOf ((s.timezone.getD .utc).wallAt u)) = true

/-- A schedule that repeats runs unless it combines days whose positions never agree.  One that
counts weeks, or has a clock of its own, runs if the window has a date of its day rule on which the
clock shows a reading of it. -/
def Schedule.Runnable (s : Schedule) (base : Moment) (d : Direction) : Prop :=
  (s.Repeats ∧ (s.CombinesDays → s.DaysAgree)) ∨
    ¬ s.Repeats ∧ ∃ date, s.matchesDate date = true ∧ s.ReadsOn base d date

section Runs

variable {s : Schedule} {base : Moment} {d : Direction}

/-- A run is a reading of the clock fields on a date of the day rule. -/
theorem exists_run_iff_readsOn :
    (∃ u, Run s (awareTimeline s base .utc) d u) ↔
      ∃ date, s.matchesDate date = true ∧ s.ReadsOn base d date := by
  constructor
  · rintro ⟨u, past, ⟨whole, seconds, minutes, hours, matching⟩, window⟩
    exact ⟨_, matching, window, u, past, rfl, whole, seconds, minutes, hours⟩
  · rintro ⟨date, matching, window, u, past, rfl, whole, seconds, minutes, hours⟩
    exact ⟨u, past, ⟨whole, seconds, minutes, hours, matching⟩, window⟩

/-- A schedule that repeats has a run in every window once some date satisfies its day rule. -/
theorem exists_run_of_repeats (fields : s.ClockFields) (readings : s.HasReadings)
    (repeats : s.Repeats) {date : Int} (matching : s.matchesDate date = true) :
    ∃ u, Run s (awareTimeline s base .utc) d u := by
  obtain ⟨date', matching', window, later⟩ :=
    exists_later_date repeats.1 (awareTimeline s base .utc) d matching
  refine exists_run_of_date fields readings rfl ?_ matching' window later
  cases own : s.timezone with
  | none => exact ⟨0, fun u => by simp [Timeline.wallAt, awareTimeline, own, TzInfo.wallAt,
      TzInfo.offsetAt, TzInfo.utc]⟩
  | some zone =>
      obtain ⟨offset, shift⟩ := repeats.2.shift
      exact ⟨offset, fun u => by
        simp [Timeline.wallAt, awareTimeline, own, (shift zone own).1]⟩

/-- Some run of the window exists exactly when some date of it satisfies the day rules. -/
theorem exists_run_iff_runnable (fields : s.ClockFields) (readings : s.HasReadings)
    (days : s.DayFields) :
    (∃ u, Run s (awareTimeline s base .utc) d u) ↔ s.Runnable base d := by
  by_cases repeats : s.Repeats
  · have rule : (∃ u, Run s (awareTimeline s base .utc) d u) ↔
        ∃ date, s.matchesDate date = true :=
      ⟨fun ⟨u, run⟩ => ⟨_, run.reading.2.2.2.2⟩,
        fun ⟨date, matching⟩ => exists_run_of_repeats fields readings repeats matching⟩
    rw [rule]
    unfold Schedule.Runnable
    by_cases combines : s.CombinesDays
    · rw [exists_date_iff_daysAgree days repeats.1 combines]
      simp [repeats, combines]
    · simp only [repeats, combines, not_true_eq_false, false_and, or_false, true_and,
        false_implies, iff_true]
      exact exists_date_of_not_combines days repeats.1 combines
  · rw [exists_run_iff_readsOn]
    simp [Schedule.Runnable, repeats]

end Runs

/-- An accepted text raises nothing, from a base of these years, exactly when some schedule of its
union is runnable after the base and some up to it. -/
theorem accepted_runs_iff (p : Platform) (schedule : String) (schedules : List Schedule)
    (base : Moment) (parsed : parseSchedule p schedule = .ok schedules) (common : CommonBase base) :
    ((∃ r, nextCronRun p schedule base = .ok r) ∧ ∃ r, latestCronRun p schedule base = .ok r) ↔
      (∃ s ∈ schedules, s.Runnable base .next) ∧
        ∃ s ∈ schedules, s.Runnable (justAfter base) .previous := by
  obtain ⟨fields, -⟩ := parseSchedule_shared schedule schedules parsed
  have readings := parseSchedule_each parseCronSchedule_hasReadings schedule schedules parsed
  have days := parseSchedule_each parseCronSchedule_dayFields schedule schedules parsed
  have direct (base : Moment) (d : Direction) :
      runInDirection p schedule base d = findRun schedules base d := by
    unfold runInDirection
    rw [parsed]
    rfl
  have latest : latestCronRun p schedule base = findRun schedules (justAfter base) .previous := by
    unfold latestCronRun
    rw [common.addMicroseconds]
    exact direct (justAfter base) .previous
  have after : SearchInRange (justAfter base).instant .previous := by
    rw [common.instant_justAfter]
    exact (common.inRange .previous).2
  have utc : (justAfter base).tzinfo = some .utc := common.utc
  have runnable (base : Moment) (d : Direction) : HasRun schedules base .utc d ↔
      ∃ s ∈ schedules, s.Runnable base d :=
    exists_congr (fun s => and_congr_right (fun mem =>
      exists_run_iff_runnable (fields s mem) (readings s mem) (days s mem)))
  rw [latest, nextCronRun, direct, findRun_returns_iff fields common.utc (common.inRange .next).1,
    findRun_returns_iff fields utc after, runnable, runnable]

/-- The parser accepts the schedule, and no search for a run of it returns. -/
theorem fifth_monday_the_first_never_runs :
    isValidCron plainPlatform fifthMondayTheFirst = .ok true ∧ CommonBase newYear2026 ∧
      ¬ ((∃ r, nextCronRun plainPlatform fifthMondayTheFirst newYear2026 = .ok r) ∧
        ∃ r, latestCronRun plainPlatform fifthMondayTheFirst newYear2026 = .ok r) := by
  have parsed : parseSchedule plainPlatform fifthMondayTheFirst =
      .ok fifthMondayTheFirstSchedules :=
    ok_of_isOk [] (by decide +kernel)
  have common : CommonBase newYear2026 := ⟨rfl, by decide +kernel, by decide +kernel⟩
  have never : ¬ HasRun fifthMondayTheFirstSchedules newYear2026 .utc .next := by
    rintro ⟨s, mem, u, run⟩
    have date := run.reading.2.2.2.2
    rw [fifthMondayTheFirst_impossible s mem] at date
    exact absurd date (by decide)
  obtain ⟨fields, -⟩ := parseSchedule_shared _ _ parsed
  refine ⟨?_, common, ?_⟩
  · unfold isValidCron
    rw [parsed]
  · rintro ⟨⟨r, returned⟩, -⟩
    exact never ((findRun_returns_iff fields common.utc (common.inRange .next).1).mp
      ⟨r, of_runInDirection parsed returned⟩)

/-- Midnight of a first of the month, if that is the fifth last Monday. -/
def fifthLastMondayTheFirst : String := "0 0 1& * MON#-5"

/-- The parse of the schedule. -/
def fifthLastMondayTheFirstSchedules : List Schedule :=
  (parseSchedule plainPlatform fifthLastMondayTheFirst).toOption.getD []

/-- The first of a month of 29 days or more is a fifth weekday counted from the last, so this
schedule runs. -/
theorem fifth_last_monday_the_first_runs :
    (∃ r, nextCronRun plainPlatform fifthLastMondayTheFirst newYear2026 = .ok r) ∧
      ∃ r, latestCronRun plainPlatform fifthLastMondayTheFirst newYear2026 = .ok r := by
  have some : fifthLastMondayTheFirstSchedules ≠ [] := by decide +kernel
  have all : fifthLastMondayTheFirstSchedules.all (fun s => s.timezone.isNone &&
      s.dayOfWeek.specs.all (fun spec => spec.modulo.isNone) && decide s.DaysAgree) = true := by
    decide +kernel
  obtain ⟨s, mem⟩ := List.exists_mem_of_ne_nil _ some
  have own := List.all_eq_true.mp all s mem
  simp only [Bool.and_eq_true, decide_eq_true_eq, List.all_eq_true,
    Option.isNone_iff_eq_none] at own
  obtain ⟨⟨noZone, noModulo⟩, agree⟩ := own
  have repeats : s.Repeats := by
    refine ⟨noModulo, ?_⟩
    rw [noZone]
    rintro zone ⟨⟩
  refine (accepted_runs_iff plainPlatform fifthLastMondayTheFirst fifthLastMondayTheFirstSchedules
    newYear2026 (ok_of_isOk [] (by decide +kernel))
    ⟨rfl, by decide +kernel, by decide +kernel⟩).mpr ?_
  exact ⟨⟨s, mem, Or.inl ⟨repeats, fun _ => agree⟩⟩, s, mem, Or.inl ⟨repeats, fun _ => agree⟩⟩

end DjQueue.Crontab
