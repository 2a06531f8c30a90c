import DjQueue.Crontab.Acceptance

/-!
# The window is complete

Without a weekday modulo a day rule repeats with the calendar's 400-year cycle, which the window of
a search covers from the second of its dates on: every reading of those dates is past the base.
-/

namespace DjQueue.Crontab

open Enumeration Relational

/-! ## What the parser leaves in a field -/

/-- The clock can show a reading of the schedule. -/
structure Schedule.HasReadings (s : Schedule) : Prop where
  seconds : s.seconds.values.members ≠ []
  minutes : s.minutes.values.members ≠ []
  hours : s.hours.values.members ≠ []

section Parsing

variable {p : Platform}

theorem fieldOf_ne_nil (allValues : List Int) (items : List (List Int × Bool)) (message : String) :
    Yields (fun f => f.values.members ≠ []) (fieldOf allValues items message) := by
  unfold fieldOf
  dsimp only
  by_cases empty : (if items.any (fun item => item.2) then allValues
      else items.flatMap (fun item => item.1)).isEmpty = true
  · rw [if_pos empty]
    exact Yields.error
  · rw [if_neg empty]
    rw [Bool.not_eq_true, List.isEmpty_eq_false_iff] at empty
    obtain ⟨n, mem⟩ := List.exists_mem_of_ne_nil _ empty
    exact Yields.ok (List.ne_nil_of_mem (IntSet.mem_members_ofList.mpr mem))

/-- A field that is accepted has values. -/
theorem parseSimpleField_ne_nil (rule : FieldRule) (expression : List Char) :
    Yields (fun f => f.values.members ≠ []) (parseSimpleField p rule expression) :=
  Yields.bind (Yields.trivial _) (fun _ _ =>
    Yields.bind (Yields.trivial _) (fun expanded _ => fieldOf_ne_nil _ expanded _))

/-- An accepted schedule has readings on every date. -/
theorem parseFields_hasReadings {seconds : Field} (some : seconds.values.members ≠ [])
    (minute hour monthday month weekday : List Char) (timezone : Option TzInfo) :
    Yields Schedule.HasReadings
      (parseFields p seconds minute hour monthday month weekday timezone) := by
  refine Yields.bind (Yields.trivial _) ?_
  rintro ⟨monthdayText, monthdayAnd⟩ -
  refine Yields.bind (Yields.trivial _) ?_
  rintro ⟨weekdayText, weekdayAnd⟩ -
  refine Yields.bind (parseSimpleField_ne_nil _ _) ?_
  intro minutes someMinute
  refine Yields.bind (parseSimpleField_ne_nil _ _) ?_
  intro hours someHour
  refine Yields.bind (Yields.trivial _) (fun dayOfMonth _ => ?_)
  refine Yields.bind (Yields.trivial _) (fun months _ => ?_)
  refine Yields.bind (Yields.trivial _) (fun dayOfWeek _ => ?_)
  refine Yields.bind (Yields.trivial _) (fun possible _ => ?_)
  exact Yields.pure ⟨some, someMinute, someHour⟩

theorem parseCronSchedule_hasReadings (schedule : List Char) :
    Yields Schedule.HasReadings (parseCronSchedule p schedule) := by
  refine Yields.bind (Yields.trivial _) ?_
  rintro ⟨fields, timezone⟩ -
  dsimp only
  split
  · exact parseFields_hasReadings (by decide) _ _ _ _ _ _
  · exact Yields.bind (parseSimpleField_ne_nil _ _)
      (fun seconds some => parseFields_hasReadings some _ _ _ _ _ _)
  · exact Yields.error

/-- What holds of every parsed cron expression holds of every schedule of a text. -/
theorem parseSchedule_each {P : Schedule → Prop}
    (each : ∀ cron, Yields P (parseCronSchedule p cron)) (schedule : String) :
    Yields (fun parsed => ∀ s ∈ parsed, P s) (parseSchedule p schedule) := by
  have single : Yields (fun parsed => ∀ s ∈ parsed, P s)
      (parseCronText p (strip schedule.toList)) := by
    refine Yields.bind (Yields.trivial _) (fun expanded _ => ?_)
    refine Yields.bind (each expanded) ?_
    intro s own
    refine Yields.pure ?_
    intro s' mem
    rw [List.mem_singleton.mp mem]
    exact own
  unfold parseSchedule
  dsimp only
  split
  · exact single
  · split
    · rename_i parsed accepted
      exact Yields.ok (single parsed accepted)
    · split
      · exact Yields.bind (Yields.trivial _) (fun crons _ => Yields.mapM (fun cron _ => each cron))
      · exact Yields.error

end Parsing

/-! ## The day rule repeats -/

/-- No date satisfies the month and day rule. -/
def Schedule.Impossible (s : Schedule) : Prop := ∀ date, s.matchesDate date = false

/-- No weekday of the schedule has a modulo. -/
def Schedule.NoModulo (s : Schedule) : Prop := ∀ spec ∈ s.dayOfWeek.specs, spec.modulo = none

section Cycle

variable {s : Schedule} (date : Int)

/-- The length of a month repeats with the calendar. -/
theorem monthLengthOf_add : monthLengthOf (date + Calendar.cycle) = monthLengthOf date := by
  unfold monthLengthOf
  rw [Calendar.civil_add]
  exact Calendar.monthLength_add _ _

/-- The weekday repeats with the calendar. -/
theorem cronWeekday_add : cronWeekday (date + Calendar.cycle) = cronWeekday date := by
  unfold cronWeekday
  rw [Calendar.weekday_add]

/-- The place of a weekday in its month repeats with the calendar. -/
theorem weekdayHashMatches_add (nth : Int) :
    weekdayHashMatches (date + Calendar.cycle) nth = weekdayHashMatches date nth := by
  unfold weekdayHashMatches
  rw [monthLengthOf_add, Calendar.civil_add]

/-- A rule for weekdays repeats with the calendar, unless it counts weeks. -/
theorem weekdaySpec_matches_add {spec : WeekdaySpec} (own : spec.modulo = none) :
    spec.matches (date + Calendar.cycle) = spec.matches date := by
  have hash : weekdayHashMatches (date + Calendar.cycle) = weekdayHashMatches date := by
    funext nth
    exact weekdayHashMatches_add date nth
  unfold WeekdaySpec.matches
  rw [cronWeekday_add, hash, own]
  rfl

/-- The rule for days of the month repeats with the calendar. -/
theorem matchesDayOfMonth_add :
    s.matchesDayOfMonth (date + Calendar.cycle) = s.matchesDayOfMonth date := by
  unfold Schedule.matchesDayOfMonth
  rw [monthLengthOf_add, Calendar.civil_add]

/-- The rules for weekdays repeat with the calendar, if none counts weeks. -/
theorem dayOfWeek_matches_add (noModulo : s.NoModulo) :
    s.dayOfWeek.matches (date + Calendar.cycle) = s.dayOfWeek.matches date := by
  unfold WeekdayField.matches
  congr 1
  rw [Bool.eq_iff_iff, List.any_eq_true, List.any_eq_true]
  refine exists_congr (fun spec => and_congr_right (fun mem => ?_))
  rw [weekdaySpec_matches_add date (noModulo spec mem)]

/-- The month and day rule of a date is that of the date a cycle later. -/
theorem matchesDate_add (noModulo : s.NoModulo) :
    s.matchesDate (date + Calendar.cycle) = s.matchesDate date := by
  unfold Schedule.matchesDate Schedule.matchesDay monthOfDate
  rw [matchesDayOfMonth_add, dayOfWeek_matches_add date noModulo, Calendar.civil_add]

end Cycle

/-! ## The window -/

section Window

variable {s : Schedule} {t : Timeline} {d : Direction} {date : Int}

/-- A matching date has a date like it in the window, past the date of the base. -/
theorem exists_later_date (noModulo : s.NoModulo) (t : Timeline) (d : Direction)
    (matching : s.matchesDate date = true) :
    ∃ date', s.matchesDate date' = true ∧ InWindow t d date' ∧
      d.Before (dateOf t.localBase) date' := by
  -- the cycle next to the date of the base, on the side of the search
  have cycle : (Calendar.cycle : Int) = 146097 := rfl
  have same (k : Int) : s.matchesDate (date + Calendar.cycle * k) = true :=
    (Calendar.of_cycle (P := fun n => s.matchesDate n = true)
      (fun n => by rw [matchesDate_add n noModulo]) date k).mpr matching
  have days : maxSearchDays = 146400 := rfl
  unfold InWindow windowDate
  cases d with
  | next =>
      rcases Calendar.exists_in_cycle date (dateOf t.localBase + 1) with ⟨k, low, high⟩
      simp only [Direction.Before, Direction.sign]
      exact ⟨_, same k, ⟨(date + Calendar.cycle * k - dateOf t.localBase).toNat, by omega,
        by omega⟩, by omega⟩
  | previous =>
      rcases Calendar.exists_in_cycle date (dateOf t.localBase - Calendar.cycle) with
        ⟨k, low, high⟩
      simp only [Direction.Before, Direction.sign]
      exact ⟨_, same k, ⟨(dateOf t.localBase - (date + Calendar.cycle * k)).toNat, by omega,
        by omega⟩, by omega⟩

/-- A date of the window past the base's, on a shifted clock, has a run. -/
theorem exists_run_of_date (fields : s.ClockFields) (readings : s.HasReadings)
    (anchor : t.localBase = t.wallAt t.base) (shift : ∃ offset, ∀ u, t.wallAt u = u + offset)
    (matching : s.matchesDate date = true) (window : InWindow t d date)
    (later : d.Before (dateOf t.localBase) date) : ∃ u, Run s t d u := by
  obtain ⟨offset, shift⟩ := shift
  obtain ⟨second, hs⟩ := List.exists_mem_of_ne_nil _ readings.seconds
  obtain ⟨minute, hm⟩ := List.exists_mem_of_ne_nil _ readings.minutes
  obtain ⟨hour, hh⟩ := List.exists_mem_of_ne_nil _ readings.hours
  have clock := fields.clockTime hh hm hs
  have shown : t.wallAt (wallOf date hour minute second - offset) =
      wallOf date hour minute second := by
    rw [shift]
    omega
  refine ⟨wallOf date hour minute second - offset, ?_, ?_, ?_⟩
  · -- a reading of a later date comes later
    have on : dateOf (wallOf date hour minute second) = date := dateOf_wallOf clock
    have day := dateOf_eq_iff.mp on
    have base := dateOf_eq_iff.mp (rfl : dateOf t.localBase = _)
    rw [midnight, dayLength_eq] at day base
    rw [shift] at anchor
    cases d <;> simp only [Direction.Before, Direction.sign] at later ⊢ <;> omega
  · rw [shown]
    refine ⟨microsecondOf_wallOf date hour minute second, ?_, ?_, ?_, ?_⟩
    · rw [secondOf_wallOf clock, fields.seconds.matches_iff clock.second]
      exact hs
    · rw [minuteOf_wallOf clock, fields.minutes.matches_iff clock.minute]
      exact hm
    · rw [hourOf_wallOf clock, fields.hours.matches_iff clock.hour]
      exact hh
    · rw [dateOf_wallOf clock]
      exact matching
  · rw [shown, dateOf_wallOf clock]
    exact window

end Window

/-! ## What the search misses -/

section Search

variable {s : Schedule} {base : Moment} {d : Direction} {e : PyError}

/-- No step of the search leaves the years 1 to 9999. -/
def StaysInYears (s : Schedule) (base : Moment) (d : Direction) : Prop :=
  findRunForSchedule s base d ≠ .error outOfRange

/-- A search that stays in range stays in the years. -/
theorem stays_of_range {tz : TzInfo} (fields : s.ClockFields) (aware : base.tzinfo = some tz)
    (range : SearchInRange base.instant d) : StaysInYears s base d := by
  intro left
  rcases findRunForSchedule_aware fields aware range with ⟨u, -, found⟩ | ⟨-, failed⟩
  · rw [found] at left
    cases left
  · rw [failed] at left
    cases left

/-- A search either leaves the years or raises the error that `_find_run` catches. -/
theorem error_of_findRunForSchedule (fields : s.ClockFields)
    (h : findRunForSchedule s base d = .error e) : e = outOfRange ∨ isValueError e = true := by
  rcases bind_eq_error h with failed | ⟨t, based, h⟩
  · exact Or.inl (error_of_timelineBase failed)
  · rcases bind_eq_error h with failed | ⟨found, searched, h⟩
    · exact Or.inl (error_of_searchDates fields failed)
    · cases found with
      | none =>
          cases h
          exact Or.inr rfl
      | some u => exact Or.inl (error_of_restoreTimeline h)

/-- The search for a schedule of an accepted text that has no weekday modulo raises only if no date
satisfies the schedule's month and day rule. -/
theorem findRunForSchedule_complete (p : Platform) (schedule : String) (schedules : List Schedule)
    (s : Schedule) (base : Moment) (d : Direction) (e : PyError)
    (parsed : parseSchedule p schedule = .ok schedules) (mem : s ∈ schedules)
    (noModulo : s.NoModulo) (fixed : FixedOffset base.tzinfo) (fixed' : FixedOffset s.timezone)
    (inside : StaysInYears s base d) (raises : findRunForSchedule s base d = .error e) :
    s.Impossible := by
  have fields := (parseSchedule_shared schedule schedules parsed).1 s mem
  have readings := parseSchedule_each parseCronSchedule_hasReadings schedule schedules parsed s mem
  intro date
  rw [← Bool.not_eq_true]
  intro matching
  rcases error_of_findRunForSchedule fields raises with left | caught
  · exact inside (left ▸ raises)
  · obtain ⟨t, based, searched⟩ := of_findRunForSchedule_valueError fields raises caught
    obtain ⟨lag, anchored⟩ := exists_anchored fixed' based
    have shift : ∃ offset, ∀ u, t.wallAt u = u + offset := by
      obtain ⟨offset, shift⟩ := readingAt_shift (s := s) fixed fixed'
      refine ⟨lag + offset, ?_⟩
      intro u
      rw [anchored.reading, shift]
      omega
    obtain ⟨date', matching', window, later⟩ := exists_later_date noModulo t d matching
    obtain ⟨u, run⟩ := exists_run_of_date fields readings anchored.localBase shift matching' window
      later
    exact no_run_of_searchDates fields (skips_of_fixed fixed fixed' anchored _) searched u run

end Search

/-- Found by searching 146400 dates in vain. -/
theorem fifth_monday_the_first_impossible :
    Schedule.Impossible (fifthMondayTheFirstSchedules.head (by decide +kernel)) := by
  have parsed : parseSchedule plainPlatform fifthMondayTheFirst = .ok fifthMondayTheFirstSchedules :=
    ok_of_isOk [] (by decide +kernel)
  have some : fifthMondayTheFirstSchedules ≠ [] := by decide +kernel
  have common : CommonBase newYear2026 := ⟨rfl, by decide +kernel, by decide +kernel⟩
  have mem := List.head_mem some
  have fields := (parseSchedule_shared _ _ parsed).1 _ mem
  have range := (common.inRange .next).1
  refine findRunForSchedule_complete plainPlatform fifthMondayTheFirst fifthMondayTheFirstSchedules _
    newYear2026 .next noMatchingDatetime parsed mem ?_ ?_ ?_ (stays_of_range fields common.utc range) ?_
  · unfold Schedule.NoModulo
    decide +kernel
  · intro zone eq
    cases eq
  · intro zone
    have all : fifthMondayTheFirstSchedules.all (fun s => s.timezone.isNone) = true := by
      decide +kernel
    rw [Option.isNone_iff_eq_none.mp (List.all_eq_true.mp all _ mem)]
    exact fun eq => Option.noConfusion rfl (heq_of_eq eq)
  · rcases findRunForSchedule_aware fields common.utc range with ⟨u, leads, -⟩ | ⟨-, failed⟩
    · have matching := leads.run.reading.2.2.2.2
      rw [fifthMondayTheFirst_impossible _ mem] at matching
      exact absurd matching (by decide)
    · exact failed

end DjQueue.Crontab
