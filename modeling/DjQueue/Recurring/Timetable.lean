import DjQueue.Crontab.Completeness
import DjQueue.Operations.Recurring
import Mathlib.Order.Bounds.Basic

/-!
# Timetables

A schedule is a set of instants to the recurring operations: `next_cron_run` returns the first one
after its base, `latest_cron_run` the last one not after it.  A text of `dj_queue.cron` whose clocks
are on fixed offsets is read so.
-/

namespace DjQueue

/-! ## Neighbours in a set of instants -/

section Neighbours

variable {α : Type} [LinearOrder α] {R : α → Prop} {now l n : α}

/-- What comes after the latest instant comes after now. -/
theorem isLeast_of_latest (latest : IsGreatest {u | u ≤ now ∧ R u} l)
    (next : IsLeast {u | l < u ∧ R u} n) : IsLeast {u | now < u ∧ R u} n := by
  have later : now < n := by
    by_contra early
    exact absurd (latest.2 ⟨not_lt.mp early, next.1.2⟩) (not_le.mpr next.1.1)
  exact ⟨⟨later, next.1.2⟩, fun u above => next.2 ⟨lt_of_le_of_lt latest.1.1 above.1, above.2⟩⟩

/-- An instant whose next one lies ahead of now is the latest. -/
theorem isGreatest_of_next (here : R l) (past : l ≤ now) (next : IsLeast {u | l < u ∧ R u} n)
    (ahead : now < n) : IsGreatest {u | u ≤ now ∧ R u} l := by
  refine ⟨⟨past, here⟩, fun u below => ?_⟩
  by_contra above
  exact absurd (next.2 ⟨not_le.mp above, below.2⟩) (not_le.mpr (lt_of_le_of_lt below.1 ahead))

end Neighbours

/-! ## Reading a schedule -/

/-- The schedule is read as the instants `IsRun`. -/
structure Timetable (cron : Cron) (schedule : String) (IsRun : Time → Prop) : Prop where
  next : ∀ {t r}, cron.nextCronRun schedule t = .ok r → IsLeast {u | t < u ∧ IsRun u} r
  latest : ∀ {t r}, cron.latestCronRun schedule t = .ok r → IsGreatest {u | u ≤ t ∧ IsRun u} r
  /-- Up to the run found, a search finds it again unless it leaves the years. -/
  again : ∀ {t u r}, cron.nextCronRun schedule t = .ok r → t ≤ u → u < r →
    cron.nextCronRun schedule u = .ok r ∨
      cron.nextCronRun schedule u = .error Crontab.outOfRange
  apart : ∀ {u}, IsRun u → ¬ IsRun (u + 1)

namespace Timetable

variable {cron : Cron} {schedule : String} {IsRun : Time → Prop} {env : Env} {runAt : Time}

/-- The check of a firing tells whether its time is a run. -/
theorem isRunOf_iff (table : Timetable env.cron schedule IsRun) {current : Bool}
    (checked : isRunOf env schedule runAt = .ok current) : current = true ↔ IsRun runAt := by
  unfold isRunOf at checked
  cases latest : env.cron.latestCronRun schedule (runAt + 1) with
  | error e =>
      rw [latest] at checked
      cases checked
  | ok last =>
      rw [latest] at checked
      cases checked
      have greatest := table.latest latest
      rw [beq_iff_eq]
      constructor
      · rintro rfl
        exact greatest.1.2
      · intro here
        have low : runAt ≤ last := greatest.2 ⟨Int.le_add_one le_rfl, here⟩
        have high : last ≤ runAt + 1 := greatest.1.1
        rcases eq_or_lt_of_le high with after | before
        · exact absurd (after ▸ greatest.1.2) (table.apart here)
        · exact le_antisymm (Int.lt_add_one_iff.mp before) low

end Timetable

/-! ## `dj_queue.cron` -/

section Crontab

open Crontab Enumeration

/-- The `datetime` of an instant, as the database hands it out. -/
def utcMoment (t : Time) : Moment := ⟨t, false, some .utc⟩

/-- `dj_queue.cron` on a platform; a text whose parsing raises is not valid. -/
def crontab (p : Platform) : Cron where
  isValidCron schedule := (Crontab.isValidCron p schedule).toOption == some true
  nextCronRun schedule t := (Crontab.nextCronRun p schedule (utcMoment t)).map Moment.instant
  latestCronRun schedule t := (Crontab.latestCronRun p schedule (utcMoment t)).map Moment.instant

/-- An accepted text whose clocks are on fixed offsets. -/
def FixedSchedule (p : Platform) (schedule : String) : Prop :=
  ∃ schedules, parseSchedule p schedule = .ok schedules ∧
    ∀ s ∈ schedules, FixedOffset s.timezone

/-- The text runs at this instant. -/
def RunsAt (p : Platform) (schedule : String) (t : Time) : Prop :=
  ∃ schedules, parseSchedule p schedule = .ok schedules ∧ Matching schedules (some .utc) t

theorem instant_utcMoment (t : Time) : (utcMoment t).instant = t := Int.sub_zero t

theorem fixedOffset_utc : FixedOffset (some .utc) := nofun

section Union

variable {schedules : List Schedule} {base base' run : Moment} {d : Direction}

/-- A search raises what the search for one of its schedules raises. -/
theorem of_candidateRuns_error {e : PyError} :
    ∀ {schedules : List Schedule}, candidateRuns base d schedules = .error e →
      ∃ s ∈ schedules, findRunForSchedule s base d = .error e ∧ isValueError e = false
  | s :: rest, failed => by
      unfold candidateRuns at failed
      cases found : findRunForSchedule s base d with
      | ok run =>
          rw [found] at failed
          cases others : candidateRuns base d rest with
          | ok runs =>
              rw [others] at failed
              cases failed
          | error e' =>
              rw [others] at failed
              cases failed
              rcases of_candidateRuns_error others with ⟨s', mem, raised⟩
              exact ⟨s', List.mem_cons_of_mem _ mem, raised⟩
      | error e' =>
          rw [found] at failed
          dsimp only at failed
          split at failed
          · rcases of_candidateRuns_error failed with ⟨s', mem, raised⟩
            exact ⟨s', List.mem_cons_of_mem _ mem, raised⟩
          · rename_i uncaught
            cases failed
            exact ⟨s, List.mem_cons_self, found, Bool.not_eq_true _ ▸ uncaught⟩

/-- From a base nearer to the run the search still reaches it. -/
theorem reached_nearer {s : Schedule} {r : Int} (fixed : FixedOffset base.tzinfo)
    (fixed' : FixedOffset s.timezone) (same : base'.tzinfo = base.tzinfo)
    (reached : Reached s base .next r) (later : base.instant ≤ base'.instant)
    (before : base'.instant < r) : Reached s base' .next r := by
  rcases reached with ⟨k, small, date⟩
  rcases readingAt_shift fixed fixed' with ⟨offset, shift⟩
  unfold Reached
  rw [same]
  rw [shift, shift] at date ⊢
  simp only [Direction.sign] at date ⊢
  have low : dateOf (base.instant + offset) ≤ dateOf (base'.instant + offset) :=
    dateOf_mono (by omega)
  have high : dateOf (base'.instant + offset) ≤ dateOf (r + offset) := dateOf_mono (by omega)
  exact ⟨(dateOf (r + offset) - dateOf (base'.instant + offset)).toNat, by omega, by omega⟩

/-- A search from between a base and its next run finds that run again, or leaves the years. -/
theorem findRun_again (union : FixedUnion schedules base) (same : base'.tzinfo = base.tzinfo)
    (found : findRun schedules base .next = .ok run) (later : base.instant ≤ base'.instant)
    (before : base'.instant < run.instant) :
    (∃ run', findRun schedules base' .next = .ok run' ∧ run'.instant = run.instant) ∨
      findRun schedules base' .next = .error outOfRange := by
  have union' : FixedUnion schedules base' := { union with fixed := same ▸ union.fixed }
  rcases findRun_exact union found with ⟨-, past, matching, least⟩
  cases again : findRun schedules base' .next with
  | ok run' =>
      left
      refine ⟨run', rfl, ?_⟩
      rcases findRun_exact union' again with ⟨-, past', matching', least'⟩
      rw [same] at matching' least'
      simp only [Direction.Before, Direction.sign, one_mul] at past past' least least'
      have notEarlier := least run'.instant (by omega)
      have notLater := least' run.instant (by omega)
      by_contra other
      rcases lt_or_gt_of_ne other with early | late
      · exact notEarlier early matching'
      · exact notLater late matching
  | error e =>
      right
      rcases of_findRun found with ⟨runs, candidates, chosen⟩
      rcases (of_candidateRuns candidates).1 run (best_spec chosen).1 with ⟨s, mem, single⟩
      have fixed' := union.fixed' s mem
      rcases findRunForSchedule_exact (union.fields s mem) union.fixed fixed' single with
        ⟨-, -, reading, reached, -⟩
      have near := reached_nearer union.fixed fixed' same reached later before
      rcases bind_eq_error again with failed | ⟨runs', candidates', none⟩
      · rcases of_candidateRuns_error failed with ⟨s', mem', raised, uncaught⟩
        rcases error_of_findRunForSchedule (union.fields s' mem') raised with left | caught
        · rw [left]
        · rw [uncaught] at caught
          cases caught
      · -- the schedule of the run has a run from here, so there is a candidate
        rcases (of_candidateRuns candidates').2 s mem with ⟨run', inside, -⟩ | ⟨e', failed, caught⟩
        · cases runs' with
          | nil => cases inside
          | cons first others => cases none
        · refine absurd near (not_reached_of_valueError (union.fields s mem) union'.fixed fixed'
            failed caught ?_ ?_)
          · simp only [Direction.Before, Direction.sign, one_mul]
            exact before
          · rw [same]
            exact reading

end Union

/-- No schedule of a text runs at two instants a microsecond apart. -/
theorem not_matching_succ {p : Platform} {schedule : String} {schedules : List Schedule}
    (parsed : parseSchedule p schedule = .ok schedules)
    (fixed : ∀ s ∈ schedules, FixedOffset s.timezone) {u : Time}
    (here : Matching schedules (some .utc) u) : ¬ Matching schedules (some .utc) (u + 1) := by
  rintro ⟨s', mem', after⟩
  rcases here with ⟨s, mem, reading⟩
  rcases (parseSchedule_shared schedule schedules parsed).2 with ⟨timezone, shared⟩
  have same : s'.readingAt = s.readingAt := by
    funext tzinfo u
    simp only [Schedule.readingAt, shared s mem, shared s' mem']
  rcases readingAt_shift (s := s) fixedOffset_utc (fixed s mem) with ⟨offset, shift⟩
  have first := reading.1
  have second := after.1
  rw [same, shift] at second
  rw [shift] at first
  simp only [microsecondOf, secondLength] at first second
  omega

/-- An accepted text on fixed offsets is read as the instants it runs at. -/
theorem timetable_crontab {p : Platform} {schedule : String} (accepted : FixedSchedule p schedule) :
    Timetable (crontab p) schedule (RunsAt p schedule) := by
  rcases accepted with ⟨schedules, parsed, fixed⟩
  have only {t : Time} : RunsAt p schedule t ↔ Matching schedules (some .utc) t := by
    constructor
    · rintro ⟨schedules', parsed', matching⟩
      rw [parsed] at parsed'
      exact Except.ok.inj parsed' ▸ matching
    · exact fun matching => ⟨schedules, parsed, matching⟩
  have searches (t : Time) := cron_search_exact p schedule schedules (utcMoment t) parsed
    fixedOffset_utc fixed
  have ofMap {x : Except PyError Moment} {r : Time} (mapped : x.map Moment.instant = .ok r) :
      ∃ m, x = .ok m ∧ m.instant = r := by
    cases x with
    | error e => cases mapped
    | ok m => exact ⟨m, rfl, Except.ok.inj mapped⟩
  constructor
  · intro t r run
    rcases ofMap run with ⟨m, found, rfl⟩
    rcases (searches t).1 m found with ⟨-, past, matching, least⟩
    rw [instant_utcMoment] at past least
    refine ⟨⟨past, only.mpr matching⟩, fun u above => ?_⟩
    by_contra before
    exact least u above.1 (not_le.mp before) (only.mp above.2)
  · intro t r run
    rcases ofMap run with ⟨m, found, rfl⟩
    rcases (searches t).2.2.1 m found with ⟨-, past, matching, greatest⟩
    rw [instant_utcMoment] at past greatest
    exact ⟨⟨past, only.mpr matching⟩, fun u below => greatest u below.1 (only.mp below.2)⟩
  · intro t u r run later before
    rcases ofMap run with ⟨m, found, rfl⟩
    have union : FixedUnion schedules (utcMoment t) :=
      fixedUnion_of_parseSchedule parsed fixedOffset_utc fixed
    have direct (base : Moment) :
        Crontab.nextCronRun p schedule base = findRun schedules base .next := by
      unfold Crontab.nextCronRun runInDirection
      rw [parsed]
      rfl
    rw [direct] at found
    simp only [crontab, direct]
    have same : (utcMoment u).tzinfo = (utcMoment t).tzinfo := rfl
    rcases findRun_again union same found
      (by rw [instant_utcMoment, instant_utcMoment]; exact later)
      (by rw [instant_utcMoment]; exact before) with ⟨run', again, same⟩ | left
    · left
      rw [again, ← same]
      rfl
    · right
      rw [left]
      rfl
  · intro u here after
    exact not_matching_succ parsed fixed (only.mp here) (only.mp after)

/-- What a search finds lies past its base, whatever the clocks do. -/
theorem before_of_findRun {schedules : List Schedule} {base run : Moment} {d : Direction}
    {tz : TzInfo} (fields : ∀ s ∈ schedules, s.ClockFields) (aware : base.tzinfo = some tz)
    (found : findRun schedules base d = .ok run) : d.Before base.instant run.instant := by
  rcases of_findRun found with ⟨runs, candidates, chosen⟩
  rcases (of_candidateRuns candidates).1 run (best_spec chosen).1 with ⟨s, mem, found⟩
  rcases of_findRunForSchedule found with ⟨timeline, u, based, searched, restored⟩
  have anchored := anchored_of_aware aware based
  have order := (pairwise_windowReadings (fields s mem) (t := timeline) (d := d)).filter
    (keepsWall timeline d (skipByWallTime timeline.localTimezone))
  rcases of_firstOver_eq_some order (of_searchDates (fields s mem) searched) with
    ⟨wall, inside, hit, -⟩
  have reading := ((mem_windowReadings (fields s mem)).mp (List.mem_filter.mp inside).1).1
  have past := (of_searchWall_some reading.1 hit).2.1
  rw [← anchored.anchor, (anchored.restored u run restored).1, add_zero, add_zero]
  exact past

/-- The next run of a text comes later, whether it is read as a set of instants or not. -/
theorem lt_of_nextCronRun {p : Platform} {schedule : String} {t r : Time}
    (next : (crontab p).nextCronRun schedule t = .ok r) : t < r := by
  simp only [crontab] at next
  cases found : Crontab.nextCronRun p schedule (utcMoment t) with
  | error e =>
      rw [found] at next
      cases next
  | ok run =>
      rw [found] at next
      cases next
      rcases bind_eq_ok found with ⟨schedules, parsed, found⟩
      have past := before_of_findRun (parseSchedule_shared schedule schedules parsed).1 rfl found
      rw [instant_utcMoment] at past
      simpa only [Direction.Before, Direction.sign, one_mul] using past

end Crontab

end DjQueue
