import DjQueue.Settings
import DjQueue.Calendar.Gregorian

/-!
# Dates, wall clocks and time zones

`datetime` as `dj_queue.cron` uses it.  A wall clock reading counts microseconds from the reading
1970-01-01 00:00:00, a date is its ordinal, and an instant of the UTC timeline is a reading of a
UTC clock.  A reading outside the years 1 to 9999 is an `OverflowError`.
-/

namespace DjQueue.Crontab

/-! ## Wall clock readings -/

/-- In microseconds, like every time. -/
def secondLength : Int := 1000000
/-- Sixty seconds. -/
def minuteLength : Int := 60 * secondLength
/-- Sixty minutes. -/
def hourLength : Int := 60 * minuteLength
/-- Twenty-four hours. -/
def dayLength : Int := 24 * hourLength

/-- `date(1970, 1, 1).toordinal()` -/
def epochOrdinal : Int := 719163

/-- `date.max.toordinal()` -/
def maxOrdinal : Int := 3652059

/-- 00:00 of a date. -/
def midnight (date : Int) : Int := (date - epochOrdinal) * dayLength

/-- `moment.date()` -/
def dateOf (wall : Int) : Int := wall / dayLength + epochOrdinal

/-- The hour of a reading. -/
def hourOf (wall : Int) : Int := wall % dayLength / hourLength
/-- The minute of a reading. -/
def minuteOf (wall : Int) : Int := wall % hourLength / minuteLength
/-- The second of a reading. -/
def secondOf (wall : Int) : Int := wall % minuteLength / secondLength
/-- The microsecond of a reading. -/
def microsecondOf (wall : Int) : Int := wall % secondLength

/-- The date lies in the years 1 to 9999. -/
def DateInRange (date : Int) : Prop := 1 ≤ date ∧ date ≤ maxOrdinal

instance (date : Int) : Decidable (DateInRange date) :=
  inferInstanceAs (Decidable (_ ∧ _))

/-- What arithmetic on a `date` or a `datetime` raises at the end of the years. -/
def outOfRange : PyError := .overflowError "date value out of range"

/-- A computed wall clock reading. -/
def checkedWall (wall : Int) : Except PyError Int :=
  if DateInRange (dateOf wall) then .ok wall else .error outOfRange

/-- `date + timedelta(days=days)` -/
def addDays (date days : Int) : Except PyError Int :=
  if DateInRange (date + days) then .ok (date + days) else .error outOfRange

/-- `datetime(year, month, day, hour, minute, second)` -/
def datetimeAt (date hour minute second : Int) : Except PyError Int :=
  if ¬ (0 ≤ hour ∧ hour ≤ 23) then .error (.valueError "hour must be in 0..23")
  else if ¬ (0 ≤ minute ∧ minute ≤ 59) then .error (.valueError "minute must be in 0..59")
  else if ¬ (0 ≤ second ∧ second ≤ 59) then .error (.valueError "second must be in 0..59")
  else .ok (midnight date + hour * hourLength + minute * minuteLength + second * secondLength)

/-! ## Time zones -/

/-- A `ZoneInfo`: the offset in force at an instant, the `fold` of the reading it shows there, and
the offset of a reading with a given `fold`.  A reading shown twice is told apart by its `fold`,
which is what `roundTrip` says; offsets are whole seconds below a day. -/
structure ZoneInfo where
  offsetAt : Int → Int
  foldAt : Int → Bool
  utcoffset : Int → Bool → Int
  roundTrip : ∀ instant, utcoffset (instant + offsetAt instant) (foldAt instant) = offsetAt instant
  offsetAt_bound : ∀ instant, -dayLength < offsetAt instant ∧ offsetAt instant < dayLength
  utcoffset_bound : ∀ wall fold, -dayLength < utcoffset wall fold ∧ utcoffset wall fold < dayLength
  offsetAt_whole : ∀ instant, offsetAt instant % secondLength = 0
  utcoffset_whole : ∀ wall fold, utcoffset wall fold % secondLength = 0

/-- The two kinds of time zone that a schedule or a base can have. -/
inductive TzInfo where
  /-- `timezone(offset)` -/
  | fixed (offset : Int) (bound : -dayLength < offset ∧ offset < dayLength)
  | zone (z : ZoneInfo)

namespace TzInfo

/-- `datetime.UTC` -/
def utc : TzInfo := .fixed 0 (by decide)

/-- `isinstance(tz, ZoneInfo)` -/
def isZoneInfo : TzInfo → Bool
  | .fixed _ _ => false
  | .zone _ => true

/-- What is added to an instant for its reading. -/
def offsetAt : TzInfo → Int → Int
  | .fixed offset _, _ => offset
  | .zone z, instant => z.offsetAt instant

/-- Whether the reading of an instant is the later of two. -/
def foldAt : TzInfo → Int → Bool
  | .fixed _ _, _ => false
  | .zone z, instant => z.foldAt instant

/-- The offset of a reading. -/
def utcoffset : TzInfo → Int → Bool → Int
  | .fixed offset _, _, _ => offset
  | .zone z, wall, fold => z.utcoffset wall fold

/-- The wall clock reading at an instant. -/
def wallAt (tz : TzInfo) (instant : Int) : Int := instant + tz.offsetAt instant

/-- The offset of a reading that is shown is the one of its instant. -/
theorem utcoffset_wallAt (tz : TzInfo) (instant : Int) :
    tz.utcoffset (tz.wallAt instant) (tz.foldAt instant) = tz.offsetAt instant := by
  cases tz with
  | fixed offset bound => rfl
  | zone z => exact z.roundTrip instant

theorem offsetAt_bound (tz : TzInfo) (instant : Int) :
    -dayLength < tz.offsetAt instant ∧ tz.offsetAt instant < dayLength := by
  cases tz with
  | fixed offset bound => exact bound
  | zone z => exact z.offsetAt_bound instant

theorem utcoffset_bound (tz : TzInfo) (wall : Int) (fold : Bool) :
    -dayLength < tz.utcoffset wall fold ∧ tz.utcoffset wall fold < dayLength := by
  cases tz with
  | fixed offset bound => exact bound
  | zone z => exact z.utcoffset_bound wall fold

/-- A reading and what it comes back as agree to the microsecond once they agree to the second. -/
theorem offset_diff_whole (tz : TzInfo) (instant wall : Int) (fold : Bool) :
    (tz.offsetAt instant - tz.utcoffset wall fold) % secondLength = 0 := by
  cases tz with
  | fixed offset bound => simp [offsetAt, utcoffset]
  | zone z =>
      have at_whole := z.offsetAt_whole instant
      have whole := z.utcoffset_whole wall fold
      simp only [offsetAt, utcoffset, secondLength] at at_whole whole ⊢
      omega

end TzInfo

/-! ## Moments -/

/-- A `datetime`. -/
structure Moment where
  wall : Int
  fold : Bool
  tzinfo : Option TzInfo

/-- `moment.astimezone(UTC)`, for a reading with `tz`. -/
def toUtc (tz : TzInfo) (wall : Int) (fold : Bool) : Except PyError Int :=
  checkedWall (wall - tz.utcoffset wall fold)

/-- `instant.astimezone(tz)` -/
def fromUtc (tz : TzInfo) (instant : Int) : Except PyError Moment :=
  (checkedWall (tz.wallAt instant)).map (fun wall => ⟨wall, tz.foldAt instant, some tz⟩)

/-- `moment + timedelta(microseconds=n)`, which forgets the `fold`. -/
def Moment.addMicroseconds (m : Moment) (n : Int) : Except PyError Moment :=
  (checkedWall (m.wall + n)).map (fun wall => ⟨wall, false, m.tzinfo⟩)

section Lemmas

/-- A reading that is returned lies in the years of `datetime` -/
theorem of_checkedWall {wall r : Int} (h : checkedWall wall = .ok r) :
    r = wall ∧ DateInRange (dateOf wall) := by
  unfold checkedWall at h
  split at h
  · exact ⟨(Except.ok.inj h).symm, ‹_›⟩
  · cases h

/-- A reading in the years of `datetime` is returned. -/
theorem checkedWall_ok {wall : Int} (h : DateInRange (dateOf wall)) : checkedWall wall = .ok wall :=
  if_pos h

/-- The reading of an instant in a zone. -/
theorem of_fromUtc {tz : TzInfo} {instant : Int} {m : Moment} (h : fromUtc tz instant = .ok m) :
    m = ⟨tz.wallAt instant, tz.foldAt instant, some tz⟩ := by
  unfold fromUtc at h
  cases checked : checkedWall (tz.wallAt instant) with
  | error e =>
      rw [checked] at h
      cases h
  | ok wall =>
      rw [checked] at h
      cases h
      rw [(of_checkedWall checked).1]

/-- The date of a reading is the one whose day holds it. -/
theorem dateOf_eq_iff {wall date : Int} :
    dateOf wall = date ↔ midnight date ≤ wall ∧ wall < midnight date + dayLength := by
  unfold dateOf midnight
  have : dayLength = 86400000000 := by decide
  have : epochOrdinal = 719163 := rfl
  constructor <;> intro h <;> simp_all <;> omega

theorem dateOf_mono {w w' : Int} (h : w ≤ w') : dateOf w ≤ dateOf w' := by
  unfold dateOf
  have : 0 < dayLength := by decide
  have := Int.ediv_le_ediv this h
  omega

end Lemmas

end DjQueue.Crontab
