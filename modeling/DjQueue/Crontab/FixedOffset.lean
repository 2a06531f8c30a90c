import DjQueue.Crontab.Unions
import DjQueue.Crontab.Shared

/-!
# Exact searches on a fixed offset

Where every clock involved is a shift of the timeline, the run that leads on the clock is the next
one in time, whichever schedule of the union has it.
-/

namespace DjQueue.Crontab

open Enumeration

/-- Absent or a fixed offset. -/
def FixedOffset (tz : Option TzInfo) : Prop := ∀ z, tz ≠ some (.zone z)

/-- The instant of a moment; on a naive timeline its reading. -/
def Moment.instant (m : Moment) : Int :=
  match m.tzinfo with
  | none => m.wall
  | some tz => m.wall - tz.utcoffset m.wall m.fold

/-- What the clock of a schedule shows at an instant of the timeline of a base. -/
def Schedule.readingAt (s : Schedule) (tzinfo : Option TzInfo) (instant : Int) : Int :=
  match tzinfo with
  | none => instant
  | some tz => (s.timezone.getD tz).wallAt instant

/-- An instant at which some schedule of a union runs. -/
def Matching (schedules : List Schedule) (tzinfo : Option TzInfo) (instant : Int) : Prop :=
  ∃ s ∈ schedules, s.MatchesWall (s.readingAt tzinfo instant)

section Clocks

variable {tz : Option TzInfo}

theorem FixedOffset.shift (fixed : FixedOffset tz) :
    ∃ offset, ∀ zone ∈ tz, (∀ u, zone.wallAt u = u + offset) ∧
      ∀ wall fold, zone.utcoffset wall fold = offset := by
  cases tz with
  | none => exact ⟨0, fun zone mem => absurd mem (by simp)⟩
  | some zone =>
      cases zone with
      | fixed offset bound =>
          refine ⟨offset, ?_⟩
          intro zone mem
          rw [← Option.mem_some.mp mem]
          exact ⟨fun u => rfl, fun wall fold => rfl⟩
      | zone z => exact absurd rfl (fixed z)

/-- A zone of one offset is skipped by readings. -/
theorem skipByWallTime_of_fixed (fixed : FixedOffset tz) : skipByWallTime tz = true := by
  cases tz with
  | none => rfl
  | some zone =>
      cases zone with
      | fixed offset bound => rfl
      | zone z => exact absurd rfl (fixed z)

/-- What is skipped by readings is a zone of one offset. -/
theorem fixedOffset_of_skip (h : skipByWallTime tz = true) : FixedOffset tz := by
  rintro z rfl
  cases h

/-- Moments of one fixed offset are ordered by their readings. -/
theorem wall_of_fixed (fixed : FixedOffset tz) :
    ∃ offset, ∀ m : Moment, m.tzinfo = tz → m.wall = m.instant + offset := by
  obtain ⟨offset, shift⟩ := fixed.shift
  cases tz with
  | none =>
      refine ⟨0, ?_⟩
      intro m eq
      simp [Moment.instant, eq]
  | some zone =>
      refine ⟨offset, ?_⟩
      intro m eq
      simp only [Moment.instant, eq, (shift zone rfl).2]
      omega

/-- The readings of the base and of the schedule differ by a constant. -/
theorem readingAt_shift {s : Schedule} (fixed : FixedOffset tz) (fixed' : FixedOffset s.timezone) :
    ∃ offset, ∀ u, s.readingAt tz u = u + offset := by
  cases tz with
  | none => exact ⟨0, fun u => by simp [Schedule.readingAt]⟩
  | some zone =>
      cases own : s.timezone with
      | none =>
          obtain ⟨offset, shift⟩ := fixed.shift
          exact ⟨offset, fun u => by simp [Schedule.readingAt, own, (shift zone rfl).1]⟩
      | some zone' =>
          obtain ⟨offset, shift⟩ := fixed'.shift
          exact ⟨offset, fun u => by simp [Schedule.readingAt, own, (shift zone' own).1]⟩

end Clocks

/-! ## The timeline of a search -/

section Timeline

variable {s : Schedule} {t : Timeline} {base : Moment} {d : Direction}

/-- The timeline of a search is that of the base, shifted by `lag`. -/
structure Anchored (s : Schedule) (base : Moment) (t : Timeline) (lag : Int) : Prop where
  anchor : t.base + lag = base.instant
  reading : ∀ u, t.wallAt u = s.readingAt base.tzinfo (u + lag)
  localBase : t.localBase = t.wallAt t.base
  restored : ∀ u run, restoreTimeline t u = .ok run →
    run.instant = u + lag ∧ run.tzinfo = base.tzinfo

theorem anchored_of_aware {tz : TzInfo} (aware : base.tzinfo = some tz)
    (h : timelineBase s base = .ok t) : Anchored s base t 0 := by
  unfold timelineBase at h
  rw [aware] at h
  obtain ⟨instant, there, h⟩ := bind_eq_ok h
  obtain ⟨localBase, here, h⟩ := bind_eq_ok h
  cases h
  obtain ⟨rfl, -⟩ := of_checkedWall there
  refine ⟨?_, ?_, ?_, ?_⟩
  · simp [Moment.instant, aware]
  · intro u
    simp [Timeline.wallAt, Schedule.readingAt, aware]
  · rw [of_fromUtc here]
    rfl
  · intro u run restored
    rw [of_fromUtc restored]
    refine ⟨?_, aware.symm⟩
    have round := tz.utcoffset_wallAt u
    simp only [Moment.instant, round]
    rw [TzInfo.wallAt]
    omega

/-- On fixed offsets a naive base has such a timeline too. -/
theorem exists_anchored (fixed : FixedOffset s.timezone) (h : timelineBase s base = .ok t) :
    ∃ lag, Anchored s base t lag := by
  cases aware : base.tzinfo with
  | some tz => exact ⟨0, anchored_of_aware aware h⟩
  | none =>
      unfold timelineBase at h
      rw [aware] at h
      dsimp only at h
      cases own : s.timezone with
      | none =>
          rw [own] at h
          cases h
          refine ⟨0, ?_, ?_, rfl, ?_⟩
          · simp [Moment.instant, aware]
          · intro u
            simp [Timeline.wallAt, Schedule.readingAt, aware]
          · intro u run restored
            cases restored
            simp [Moment.instant, aware]
      | some tz =>
          obtain ⟨offset, shift⟩ := fixed.shift
          obtain ⟨wallAt, utcoffset⟩ := shift tz own
          rw [own] at h
          obtain ⟨instant, there, h⟩ := bind_eq_ok h
          obtain ⟨localBase, here, h⟩ := bind_eq_ok h
          cases h
          obtain ⟨rfl, -⟩ := of_checkedWall there
          refine ⟨offset, ?_, ?_, ?_, ?_⟩
          · simp only [Moment.instant, aware, utcoffset]
            omega
          · intro u
            simp [Timeline.wallAt, Schedule.readingAt, aware, wallAt]
          · rw [of_fromUtc here]
            rfl
          · intro u run restored
            obtain ⟨moment, back, restored⟩ := bind_eq_ok restored
            cases restored
            rw [of_fromUtc back]
            simp [Moment.instant, aware, wallAt]

/-- The zone of the search has one offset as well. -/
theorem localTimezone_of_fixed (fixed : FixedOffset base.tzinfo) (fixed' : FixedOffset s.timezone)
    (h : timelineBase s base = .ok t) : FixedOffset t.localTimezone := by
  intro z zone
  unfold timelineBase at h
  cases aware : base.tzinfo with
  | some tz =>
      rw [aware] at h
      obtain ⟨instant, -, h⟩ := bind_eq_ok h
      obtain ⟨localBase, -, h⟩ := bind_eq_ok h
      cases h
      cases own : s.timezone with
      | none =>
          rw [own] at zone
          exact fixed z (aware.trans zone)
      | some tz' =>
          rw [own] at zone
          exact fixed' z (own.trans zone)
  | none =>
      rw [aware] at h
      dsimp only at h
      cases own : s.timezone with
      | none =>
          rw [own] at h
          cases h
          cases zone
      | some tz' =>
          rw [own] at h
          obtain ⟨instant, -, h⟩ := bind_eq_ok h
          obtain ⟨localBase, -, h⟩ := bind_eq_ok h
          cases h
          exact fixed' z (own.trans zone)

/-- The instants whose date the search for a schedule looks at. -/
def Reached (s : Schedule) (base : Moment) (d : Direction) (instant : Int) : Prop :=
  ∃ k < maxSearchDays, dateOf (s.readingAt base.tzinfo instant) =
    dateOf (s.readingAt base.tzinfo base.instant) + d.sign * (k : Nat)

theorem Anchored.run_iff {lag u : Int} (anchored : Anchored s base t lag) :
    Run s t d u ↔ d.Before base.instant (u + lag) ∧
      s.MatchesWall (s.readingAt base.tzinfo (u + lag)) ∧ Reached s base d (u + lag) := by
  have past : d.Before t.base u ↔ d.Before base.instant (u + lag) := by
    rw [← anchored.anchor]
    cases d <;> simp only [Direction.Before, Direction.sign] <;> omega
  have window : InWindow t d (dateOf (t.wallAt u)) ↔ Reached s base d (u + lag) := by
    unfold InWindow windowDate Reached
    rw [anchored.localBase, anchored.reading, anchored.reading, anchored.anchor]
  constructor
  · rintro ⟨isPast, reading, inside⟩
    exact ⟨past.mp isPast, anchored.reading u ▸ reading, window.mp inside⟩
  · rintro ⟨isPast, reading, inside⟩
    exact ⟨past.mpr isPast, (anchored.reading u).symm ▸ reading, window.mpr inside⟩

end Timeline

/-! ## One schedule -/

section Search

variable {s : Schedule} {t : Timeline} {base run : Moment} {d : Direction}
  (fields : s.ClockFields) (fixed : FixedOffset base.tzinfo) (fixed' : FixedOffset s.timezone)

include fixed fixed'

/-- Skipping by readings is skipping by instants. -/
theorem skips_of_fixed {lag : Int} (anchored : Anchored s base t lag) (skip : Bool) :
    Skips t d skip := by
  refine ⟨anchored.localBase, ?_⟩
  intro _
  obtain ⟨offset, shift⟩ := readingAt_shift fixed fixed'
  refine ⟨lag + offset, ?_⟩
  intro u
  rw [anchored.reading, shift]
  omega

include fields

/-- What the search for one schedule returns is its next run in time. -/
theorem findRunForSchedule_exact (h : findRunForSchedule s base d = .ok run) :
    run.tzinfo = base.tzinfo ∧ d.Before base.instant run.instant ∧
      s.MatchesWall (s.readingAt base.tzinfo run.instant) ∧ Reached s base d run.instant ∧
      ∀ v, d.Before base.instant v → s.MatchesWall (s.readingAt base.tzinfo v) →
        Reached s base d v → ¬ d.Before v run.instant := by
  obtain ⟨t, u, based, searched, restored⟩ := of_findRunForSchedule h
  obtain ⟨lag, anchored⟩ := exists_anchored fixed' based
  obtain ⟨instant, tzinfo⟩ := anchored.restored u run restored
  have leads := leads_of_searchDates fields (skips_of_fixed fixed fixed' anchored _) searched
  obtain ⟨past, reading, reached⟩ := anchored.run_iff.mp leads.run
  rw [instant]
  refine ⟨tzinfo, past, reading, reached, ?_⟩
  intro v past' reading' reached' before
  obtain ⟨offset, shift⟩ := readingAt_shift fixed fixed'
  have back : v - lag + lag = v := by omega
  have run' : Run s t d (v - lag) := by
    rw [anchored.run_iff, back]
    exact ⟨past', reading', reached'⟩
  rcases leads.first _ run' with same | ahead | ⟨same, ahead⟩
  · rw [← same, back] at before
    exact Direction.Before.irrefl before
  · rw [anchored.reading, anchored.reading, shift, shift, back] at ahead
    cases d <;> simp only [Direction.Before, Direction.sign] at ahead before <;> omega
  · cases d <;> simp only [Direction.Before, Direction.sign] at ahead before <;> omega

/-- A search that raises because it found nothing has passed the run by. -/
theorem not_reached_of_valueError {e : PyError} (h : findRunForSchedule s base d = .error e)
    (caught : isValueError e = true) {v : Int} (past : d.Before base.instant v)
    (reading : s.MatchesWall (s.readingAt base.tzinfo v)) : ¬ Reached s base d v := by
  intro reached
  obtain ⟨t, based, searched⟩ := of_findRunForSchedule_valueError fields h caught
  obtain ⟨lag, anchored⟩ := exists_anchored fixed' based
  refine no_run_of_searchDates fields (skips_of_fixed fixed fixed' anchored _) searched (v - lag) ?_
  rw [anchored.run_iff, show v - lag + lag = v by omega]
  exact ⟨past, reading, reached⟩

omit fields

/-- What lies between the base and a reached instant is reached. -/
theorem reached_between {r v : Int} (reached : Reached s base d r) (past : d.Before base.instant v)
    (before : d.Before v r) : Reached s base d v := by
  obtain ⟨k, small, date⟩ := reached
  obtain ⟨offset, shift⟩ := readingAt_shift fixed fixed'
  rw [shift, shift] at date
  unfold Reached
  rw [shift, shift]
  cases d with
  | next =>
      simp only [Direction.Before, Direction.sign] at *
      have low : dateOf (base.instant + offset) ≤ dateOf (v + offset) := dateOf_mono (by omega)
      have high : dateOf (v + offset) ≤ dateOf (r + offset) := dateOf_mono (by omega)
      exact ⟨(dateOf (v + offset) - dateOf (base.instant + offset)).toNat, by omega, by omega⟩
  | previous =>
      simp only [Direction.Before, Direction.sign] at *
      have low : dateOf (v + offset) ≤ dateOf (base.instant + offset) := dateOf_mono (by omega)
      have high : dateOf (r + offset) ≤ dateOf (v + offset) := dateOf_mono (by omega)
      exact ⟨(dateOf (base.instant + offset) - dateOf (v + offset)).toNat, by omega, by omega⟩

include fields

/-- Searching the hours and minutes that are skipped finds the same. -/
theorem searchDates_skip (based : timelineBase s base = .ok t) {found : Option Int}
    (h : searchDates s t d false = .ok found) : searchDates s t d true = .ok found := by
  obtain ⟨lag, anchored⟩ := exists_anchored fixed' based
  have skips := skips_of_fixed (d := d) fixed fixed' anchored true
  refine walk_congr ?_ h
  intro date r visited
  rw [searchDate_eq fields] at visited ⊢
  have whole : ∀ wall ∈ (if s.matchesDate date then readings s d date else []),
      microsecondOf wall = 0 := by
    intro wall mem
    split at mem
    · exact ((mem_readings fields).mp mem).2.1
    · cases mem
  rw [List.filter_eq_self.mpr (fun wall _ => by simp [keepsWall, keepsHour, keepsMinute])] at visited
  rw [← visited]
  refine firstOver_filter (fun _ => True) ?_ ?_
  · intro wall mem skipped
    rcases visit_cases (searchWall t d wall) with none | ⟨u, some⟩ | ⟨e, error⟩
    · exact Or.inl none
    · obtain ⟨rfl, past, -⟩ := of_searchWall_some (whole wall mem) some
      exact absurd past (not_past_of_skipped skips skipped)
    · exact Or.inr ⟨e, error, trivial⟩
  · intro e failed
    rw [visited] at failed
    cases failed

end Search

/-! ## Unions -/

section Unions

variable {schedules : List Schedule} {base run : Moment} {d : Direction}

/-- The schedules of one text, on fixed offsets. -/
structure FixedUnion (schedules : List Schedule) (base : Moment) : Prop where
  fields : ∀ s ∈ schedules, s.ClockFields
  shared : ∃ timezone, ∀ s ∈ schedules, s.timezone = timezone
  fixed : FixedOffset base.tzinfo
  fixed' : ∀ s ∈ schedules, FixedOffset s.timezone

/-- The run of a union is its next matching instant. -/
theorem findRun_exact (union : FixedUnion schedules base)
    (h : findRun schedules base d = .ok run) :
    run.tzinfo = base.tzinfo ∧ d.Before base.instant run.instant ∧
      Matching schedules base.tzinfo run.instant ∧
      ∀ v, d.Before base.instant v → d.Before v run.instant →
        ¬ Matching schedules base.tzinfo v := by
  obtain ⟨runs, candidates, chosen⟩ := of_findRun h
  obtain ⟨from_, each⟩ := of_candidateRuns candidates
  obtain ⟨inside, first⟩ := best_spec chosen
  obtain ⟨s, mem, found⟩ := from_ run inside
  obtain ⟨tzinfo, past, reading, reached, -⟩ :=
    findRunForSchedule_exact (union.fields s mem) union.fixed (union.fixed' s mem) found
  refine ⟨tzinfo, past, ⟨s, mem, reading⟩, ?_⟩
  rintro v past' before ⟨s', mem', reading'⟩
  have reached' : Reached s' base d v := by
    -- both clocks are the same, and so are their windows
    obtain ⟨timezone, shared⟩ := union.shared
    have same : s'.readingAt = s.readingAt := by
      funext tzinfo u
      simp only [Schedule.readingAt, shared s mem, shared s' mem']
    have between := reached_between union.fixed (union.fixed' s mem) reached past' before
    unfold Reached at between ⊢
    rw [same]
    exact between
  rcases each s' mem' with ⟨run', inside', found'⟩ | ⟨e, failed, caught⟩
  · obtain ⟨tzinfo', -, -, -, least⟩ :=
      findRunForSchedule_exact (union.fields s' mem') union.fixed (union.fixed' s' mem') found'
    have notBefore := least v past' reading' reached'
    have notBetter := first run' inside'
    obtain ⟨offset, wall⟩ := wall_of_fixed union.fixed
    rw [wall run tzinfo, wall run' tzinfo'] at notBetter
    unfold Direction.Before at *
    cases d <;> simp only [Direction.sign] at * <;> omega
  · exact not_reached_of_valueError (union.fields s' mem') union.fixed (union.fixed' s' mem') failed
      caught past' reading' reached'

/-- The parsed schedules are a union over zones of one offset. -/
theorem fixedUnion_of_parseSchedule {p : Platform} {schedule : String}
    (parsed : parseSchedule p schedule = .ok schedules) (fixed : FixedOffset base.tzinfo)
    (fixed' : ∀ s ∈ schedules, FixedOffset s.timezone) : FixedUnion schedules base := by
  obtain ⟨fields, shared⟩ := parseSchedule_shared schedule schedules parsed
  exact ⟨fields, shared, fixed, fixed'⟩

/-- The public function parses, then searches. -/
theorem of_runInDirection {p : Platform} {schedule : String}
    (parsed : parseSchedule p schedule = .ok schedules)
    (h : runInDirection p schedule base d = .ok run) : findRun schedules base d = .ok run := by
  unfold runInDirection at h
  rw [parsed] at h
  exact h

/-- A microsecond is added to the reading. -/
theorem of_addMicroseconds {n : Int} {m after : Moment} (h : m.addMicroseconds n = .ok after) :
    after = ⟨m.wall + n, false, m.tzinfo⟩ := by
  unfold Moment.addMicroseconds at h
  cases checked : checkedWall (m.wall + n) with
  | error e =>
      rw [checked] at h
      cases h
  | ok wall =>
      rw [checked] at h
      cases h
      rw [(of_checkedWall checked).1]

end Unions

/-! ## The operations -/

/-- A microsecond is added to the instant. -/
theorem instant_of_addMicroseconds {n : Int} {m after : Moment} (fixed : FixedOffset m.tzinfo)
    (h : m.addMicroseconds n = .ok after) :
    after.instant = m.instant + n ∧ after.tzinfo = m.tzinfo := by
  rw [of_addMicroseconds h]
  obtain ⟨offset, wall⟩ := wall_of_fixed fixed
  have before := wall m rfl
  have shifted := wall ⟨m.wall + n, false, m.tzinfo⟩ rfl
  dsimp only at shifted
  exact ⟨by omega, rfl⟩

/-- On a naive timeline or one of a fixed offset `next_cron_run` returns the first matching instant
after the base, `previous_cron_run` the last one before it and `latest_cron_run` the last one not
after it; and skipping by wall time changes none of this. -/
theorem cron_search_exact (p : Platform) (schedule : String) (schedules : List Schedule)
    (base : Moment) (parsed : parseSchedule p schedule = .ok schedules)
    (fixed : FixedOffset base.tzinfo) (fixed' : ∀ s ∈ schedules, FixedOffset s.timezone) :
    (∀ r, nextCronRun p schedule base = .ok r →
      r.tzinfo = base.tzinfo ∧ base.instant < r.instant ∧
        Matching schedules base.tzinfo r.instant ∧
        ∀ u, base.instant < u → u < r.instant → ¬ Matching schedules base.tzinfo u) ∧
    (∀ r, previousCronRun p schedule base = .ok r →
      r.tzinfo = base.tzinfo ∧ r.instant < base.instant ∧
        Matching schedules base.tzinfo r.instant ∧
        ∀ u, r.instant < u → u < base.instant → ¬ Matching schedules base.tzinfo u) ∧
    (∀ r, latestCronRun p schedule base = .ok r →
      r.tzinfo = base.tzinfo ∧ r.instant ≤ base.instant ∧
        Matching schedules base.tzinfo r.instant ∧
        ∀ u, u ≤ base.instant → Matching schedules base.tzinfo u → u ≤ r.instant) ∧
    ∀ s ∈ schedules, ∀ t, timelineBase s base = .ok t →
      skipByWallTime t.localTimezone = true ∧
        ∀ d found, searchDates s t d false = .ok found → searchDates s t d true = .ok found := by
  have union (base' : Moment) (same : base'.tzinfo = base.tzinfo) : FixedUnion schedules base' :=
    fixedUnion_of_parseSchedule parsed (same ▸ fixed) fixed'
  refine ⟨?_, ?_, ?_, ?_⟩
  · intro r run
    obtain ⟨tzinfo, past, matching, least⟩ :=
      findRun_exact (union base rfl) (of_runInDirection parsed run)
    simp only [Direction.Before, Direction.sign, one_mul] at past least
    exact ⟨tzinfo, past, matching, least⟩
  · intro r run
    obtain ⟨tzinfo, past, matching, least⟩ :=
      findRun_exact (union base rfl) (of_runInDirection parsed run)
    simp only [Direction.Before, Direction.sign, neg_one_mul, neg_lt_neg_iff] at past least
    exact ⟨tzinfo, past, matching, fun u after before => least u before after⟩
  · intro r run
    obtain ⟨after, added, run⟩ := bind_eq_ok run
    obtain ⟨instant, same⟩ := instant_of_addMicroseconds fixed added
    obtain ⟨tzinfo, past, matching, least⟩ :=
      findRun_exact (union after same) (of_runInDirection parsed run)
    simp only [Direction.Before, Direction.sign, neg_one_mul, neg_lt_neg_iff] at past least
    rw [same] at tzinfo matching least
    refine ⟨tzinfo, by omega, matching, ?_⟩
    intro u notAfter runs
    by_contra later
    exact least u (by omega) (by omega) runs
  · intro s mem t based
    have fields := (union base rfl).fields s mem
    refine ⟨?_, fun d found searched =>
      searchDates_skip fields fixed (fixed' s mem) based searched⟩
    exact skipByWallTime_of_fixed (localTimezone_of_fixed fixed (fixed' s mem) based)

/-- 2026-04-08 12:00 UTC -/
def aprilNoon : Moment := ⟨wallOf (Calendar.ordinal ⟨2026, 4, 8⟩) 12 0 0, false, some .utc⟩

/-- A phrase with two times. -/
def twiceADay : String := "every day at 9:30 and 17:00 in +02:00"

/-- The first run of `twiceADay` after the base. -/
def twiceADayRun : Moment :=
  (nextCronRun plainPlatform twiceADay aprilNoon).toOption.getD aprilNoon

/-- The parse of the phrase. -/
def twiceADaySchedules : List Schedule :=
  (parseSchedule plainPlatform twiceADay).toOption.getD []

/-- The second time, in the zone of the base. -/
theorem twiceADay_at_three :
    twiceADayRun.wall = wallOf (Calendar.ordinal ⟨2026, 4, 8⟩) 15 0 0 ∧
      aprilNoon.instant < twiceADayRun.instant ∧
      Matching twiceADaySchedules aprilNoon.tzinfo twiceADayRun.instant := by
  have parsed : parseSchedule plainPlatform twiceADay = .ok twiceADaySchedules :=
    ok_of_isOk [] (by decide +kernel)
  have run : nextCronRun plainPlatform twiceADay aprilNoon = .ok twiceADayRun :=
    ok_of_isOk aprilNoon (by decide +kernel)
  have fixed : ∀ s ∈ twiceADaySchedules, FixedOffset s.timezone := by
    have all : twiceADaySchedules.all (fun s => skipByWallTime s.timezone) = true := by
      decide +kernel
    intro s mem
    exact fixedOffset_of_skip (List.all_eq_true.mp all s mem)
  obtain ⟨-, past, matching, -⟩ := (cron_search_exact plainPlatform twiceADay twiceADaySchedules
    aprilNoon parsed (fixedOffset_of_skip (by decide)) fixed).1 twiceADayRun run
  exact ⟨by decide +kernel, past, matching⟩

end DjQueue.Crontab
