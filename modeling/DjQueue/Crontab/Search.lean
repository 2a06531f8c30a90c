import DjQueue.Crontab.Schedule
import DjQueue.Crontab.Text
import DjQueue.Enumeration.First

/-!
# The search for a run

`_find_run` and what it calls: the days from the base's own day on, the hours, minutes and seconds
of a matching day, the instants that show a reading, and the choice among the schedules of a union.
-/

namespace DjQueue.Crontab

open Enumeration

/-- `400 * 366` -/
def maxSearchDays : Nat := 146400

/-- The `direction` of a search, 1 or -1. -/
inductive Direction where
  | next
  | previous
deriving DecidableEq, Repr

namespace Direction

/-- `direction` -/
def sign : Direction → Int
  | .next => 1
  | .previous => -1

/-- `a` comes first on the way. -/
def Before (d : Direction) (a b : Int) : Prop := d.sign * a < d.sign * b

instance (d : Direction) (a b : Int) : Decidable (d.Before a b) :=
  inferInstanceAs (Decidable (_ < _))

/-- `sorted(values, reverse=direction < 0)` -/
def ordered (d : Direction) (values : IntSet) : List Int :=
  match d with
  | .next => values.members
  | .previous => values.members.reverse

end Direction

/-! ## Instants -/

/-- `_same_local_time` compares readings to the second. -/
def sameLocalTime (left right : Int) : Bool := left / secondLength == right / secondLength

/-- The instant a reading with a `fold` stands for, if the clock shows it then. -/
def foldCandidate (tz : TzInfo) (wall : Int) (fold : Bool) : Except PyError (List Int) := do
  let instant ← toUtc tz wall fold
  let back ← fromUtc tz instant
  pure (if sameLocalTime back.wall wall then [instant] else [])

/-- `_timeline_candidates` -/
def timelineCandidates (localTimezone : Option TzInfo) (d : Direction) (wall : Int) :
    Except PyError (List Int) :=
  match localTimezone with
  | none => .ok [wall]
  | some tz => do
      let first ← foldCandidate tz wall false
      let second ← foldCandidate tz wall true
      pure (d.ordered (IntSet.ofList (first ++ second)))

/-! ## One schedule -/

/-- What the search for a run of one schedule starts from. -/
structure Timeline where
  /-- `timeline_base` -/
  base : Int
  /-- The reading at the base. -/
  localBase : Int
  localTimezone : Option TzInfo
  returnTimezone : Option TzInfo

/-- `_timeline_base` -/
def timelineBase (s : Schedule) (base : Moment) : Except PyError Timeline :=
  match base.tzinfo with
  | some tz => do
      let instant ← toUtc tz base.wall base.fold
      let localTimezone := s.timezone.getD tz
      let localBase ← fromUtc localTimezone instant
      pure ⟨instant, localBase.wall, some localTimezone, some tz⟩
  | none =>
      match s.timezone with
      | some tz => do
          let instant ← toUtc tz base.wall base.fold
          let localBase ← fromUtc tz instant
          pure ⟨instant, localBase.wall, some tz, none⟩
      | none => .ok ⟨base.wall, base.wall, none, none⟩

/-- `_restore_timeline` -/
def restoreTimeline (t : Timeline) (candidate : Int) : Except PyError Moment :=
  match t.returnTimezone, t.localTimezone with
  | some tz, _ => fromUtc tz candidate
  | none, some tz => do
      let moment ← fromUtc tz candidate
      pure ⟨moment.wall, moment.fold, none⟩
  | none, none => .ok ⟨candidate, false, none⟩

/-- Hours and minutes before the base are skipped on its own date, except in a `ZoneInfo`. -/
def skipByWallTime (localTimezone : Option TzInfo) : Bool :=
  localTimezone.all (fun tz => !tz.isZoneInfo)

section Loops

variable (s : Schedule) (t : Timeline) (d : Direction) (skip : Bool)

/-- An hour that is not behind the base on its own date. -/
def keepsHour (date hour : Int) : Bool :=
  !(skip && decide (date = dateOf t.localBase) && decide (d.Before hour (hourOf t.localBase)))

/-- A minute that is not behind the base in its own hour. -/
def keepsMinute (date hour minute : Int) : Bool :=
  !(skip && decide (date = dateOf t.localBase) && decide (hour = hourOf t.localBase) &&
    decide (d.Before minute (minuteOf t.localBase)))

/-- The first instant past the base that shows a reading. -/
def searchWall (wall : Int) : Except PyError (Option Int) :=
  (timelineCandidates t.localTimezone d wall).map
    (fun candidates => candidates.find? (fun candidate => decide (d.Before t.base candidate)))

/-- The loops over the hours, minutes and seconds of a date. -/
def searchTimes (date : Int) : Except PyError (Option Int) :=
  firstOver (fun hour =>
    firstOver (fun minute =>
      firstOver (fun second => do
        let wall ← datetimeAt date hour minute second
        searchWall t d wall)
      (d.ordered s.seconds.values))
    ((d.ordered s.minutes.values).filter (keepsMinute t d skip date hour)))
  ((d.ordered s.hours.values).filter (keepsHour t d skip date))

/-- The times of a date the schedule matches. -/
def searchDate (date : Int) : Except PyError (Option Int) :=
  if s.matchesDate date then searchTimes s t d skip date else .ok none

/-- The dates of the window, one after the other. -/
def searchDates : Except PyError (Option Int) :=
  walk (searchDate s t d skip) (fun date => addDays date d.sign) maxSearchDays (dateOf t.localBase)

end Loops

/-- What is raised at the end of the window. -/
def noMatchingDatetime : PyError :=
  .valueError "cron schedule has no matching datetime in the search window"

/-- `_find_run_for_schedule` -/
def findRunForSchedule (s : Schedule) (base : Moment) (d : Direction) : Except PyError Moment := do
  let t ← timelineBase s base
  let found ← searchDates s t d (skipByWallTime t.localTimezone)
  match found with
  | some candidate => restoreTimeline t candidate
  | none => .error noMatchingDatetime

/-! ## Unions -/

/-- The runs of the schedules that have one. -/
def candidateRuns (base : Moment) (d : Direction) : List Schedule → Except PyError (List Moment)
  | [] => .ok []
  | s :: rest =>
      match findRunForSchedule s base d with
      | .ok run => (candidateRuns base d rest).map (run :: ·)
      | .error e => if isValueError e then candidateRuns base d rest else .error e

/-- With one `tzinfo` among the runs, their readings are compared. -/
def better (d : Direction) (m m' : Moment) : Moment := if d.Before m'.wall m.wall then m' else m

/-- `min(candidates)` or `max(candidates)` -/
def best (d : Direction) : List Moment → Option Moment
  | [] => none
  | m :: rest => some (rest.foldl (better d) m)

/-- `_find_run` -/
def findRun (schedules : List Schedule) (base : Moment) (d : Direction) : Except PyError Moment := do
  let candidates ← candidateRuns base d schedules
  match best d candidates with
  | some run => pure run
  | none => .error noMatchingDatetime

end DjQueue.Crontab
