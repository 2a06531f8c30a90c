import DjQueue.Crontab.Segments
import DjQueue.Crontab.Search

/-!
# `dj_queue.cron`

A schedule text is a special, a cron expression or a natural schedule; a run of it is the best of
the runs of its parsed schedules.
-/

namespace DjQueue.Crontab

/-- `_SPECIALS` -/
def specials : List (String × String) :=
  [("@yearly", "0 0 1 1 *"), ("@annually", "0 0 1 1 *"), ("@monthly", "0 0 1 * *"),
    ("@weekly", "0 0 * * 0"), ("@daily", "0 0 * * *"), ("@midnight", "0 0 * * *"),
    ("@noon", "0 12 * * *"), ("@hourly", "0 * * * *")]

section Parsing

variable (p : Platform)

/-- `_expand_special` -/
def expandSpecial (schedule : List Char) : Except PyError (List Char) :=
  if schedule.isEmpty then .error (.valueError "cron schedule cannot be empty")
  else if schedule.head? ≠ some '@' then .ok schedule
  else
    let special := (words schedule).headD []
    match specials.lookup (text (p.unicode.lowerText special)) with
    | none => .error (.valueError s!"unsupported cron special {quoted special}")
    | some expanded => .ok (unwords (expanded.toList :: (words schedule).tail))

/-- `except (ValueError, ZoneInfoNotFoundError)` -/
def isRejection : PyError → Bool
  | .valueError _ | .zoneInfoNotFoundError _ => true
  | _ => false

/-- The schedule as a special or a cron expression. -/
def parseCronText (schedule : List Char) : Except PyError (List Schedule) := do
  let expanded ← expandSpecial p schedule
  let parsed ← parseCronSchedule p expanded
  pure [parsed]

/-- A natural schedule is parsed cron by cron. -/
def parseNatural (schedule : List Char) : Except PyError (List Schedule) := do
  let crons ← expandNaturalSchedule p schedule
  crons.mapM (parseCronSchedule p)

/-- `_parse_schedule`: text that is no cron schedule is tried as a natural one. -/
def parseSchedule (schedule : String) : Except PyError (List Schedule) :=
  let stripped := strip schedule.toList
  if stripped.head? = some '@' then parseCronText p stripped
  else
    match parseCronText p stripped with
    | .ok parsed => .ok parsed
    | .error e => if isRejection e then parseNatural p stripped else .error e

/-- `is_valid_cron` -/
def isValidCron (schedule : String) : Except PyError Bool :=
  match parseSchedule p schedule with
  | .ok _ => .ok true
  | .error e => if isRejection e then .ok false else .error e

/-- The parse and the search of both public functions. -/
def runInDirection (schedule : String) (base : Moment) (d : Direction) : Except PyError Moment := do
  let parsed ← parseSchedule p schedule
  findRun parsed base d

/-- `next_cron_run` -/
def nextCronRun (schedule : String) (base : Moment) : Except PyError Moment :=
  runInDirection p schedule base .next

/-- `previous_cron_run` -/
def previousCronRun (schedule : String) (base : Moment) : Except PyError Moment :=
  runInDirection p schedule base .previous

/-- `latest_cron_run`: a run at the base itself counts. -/
def latestCronRun (schedule : String) (base : Moment) : Except PyError Moment := do
  let after ← base.addMicroseconds 1
  previousCronRun p schedule after

end Parsing

end DjQueue.Crontab
