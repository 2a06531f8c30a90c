import DjQueue.Crontab.Text

/-!
# Cron expressions

The parser of five-, six- and seven-token cron expressions, field by field.
-/

namespace DjQueue.Crontab

open Regex

/-- `_MONTH_NAMES` -/
def monthNames : List (String × Int) :=
  [("JAN", 1), ("FEB", 2), ("MAR", 3), ("APR", 4), ("MAY", 5), ("JUN", 6), ("JUL", 7), ("AUG", 8),
    ("SEP", 9), ("OCT", 10), ("NOV", 11), ("DEC", 12)]

/-- `_WEEKDAY_NAMES` -/
def weekdayNames : List (String × Int) :=
  [("SUN", 0), ("MON", 1), ("TUE", 2), ("WED", 3), ("THU", 4), ("FRI", 5), ("SAT", 6)]

/-- `_normalize_hour` -/
def normalizeHour (value : Int) : Int := if value = 24 then 0 else value

/-- `_normalize_day_of_week` -/
def normalizeDayOfWeek (value : Int) : Int := if value = 7 then 0 else value

/-! ## Items -/

/-- `_field_items`: an empty item is dropped, an empty field raises. -/
def fieldItems (expression : List Char) : Except PyError (List (List Char)) :=
  let items := ((expression.splitOnP (· == ',')).map strip).filter (fun item => !item.isEmpty)
  if items.isEmpty then .error (.valueError "empty cron field") else .ok items

/-- `_parse_step` -/
def parseStep (value : List Char) : Except PyError Int :=
  if isInt value then do
    let step ← toInt value
    if step ≤ 0 then .error (.valueError "cron steps must be positive") else pure step
  else .error (.valueError "cron steps must be integers")

/-- The range, the step and whether a step is given. -/
def splitStep (item : List Char) : Except PyError (List Char × Int × Bool) :=
  if item.head? = some '/' then do
    let step ← parseStep item.tail
    pure (['*'], step, true)
  else if !item.contains '/' then .ok (item, 1, false)
  else if item.count '/' ≠ 1 then
    .error (.valueError "cron field items can contain one step")
  else do
    let step ← parseStep (splitOnce '/' item).2
    pure ((splitOnce '/' item).1, step, true)

/-- `_cyclic_values`: a range that ends before it starts goes on at the minimum. -/
def cyclicValues (start stop minimum maximum step : Int) (normalize : Int → Int) : List Int :=
  let rawValues :=
    if start ≤ stop then IntSet.range start stop
    else IntSet.range start maximum ++ IntSet.range minimum stop
  (rawValues.zipIdx.filter (fun x => (x.2 : Int) % step == 0)).map (fun x => normalize x.1)

/-! ## Seconds, minutes, hours and months -/

/-- The keyword arguments of `_parse_simple_field`. -/
structure FieldRule where
  minimum : Int
  maximum : Int
  names : List (String × Int) := []
  normalize : Int → Int := id
  singleStepToMax : Bool := true
  fullRangeIsWildcard : Bool := true

/-- The values of a wildcard. -/
def FieldRule.allValues (rule : FieldRule) : List Int :=
  (IntSet.range rule.minimum rule.maximum).map rule.normalize

section Parsing

variable (p : Platform)

/-- The number a name or a numeral stands for. -/
def boundNumber (rule : FieldRule) (value : List Char) : Except PyError Int :=
  match rule.names.lookup (text (p.unicode.upperText value)) with
  | some number => .ok number
  | none =>
      if isInt value then toInt value
      else .error (.valueError s!"invalid cron value {quoted value}")

/-- `_parse_simple_bound` -/
def parseSimpleBound (rule : FieldRule) (value : List Char) : Except PyError Int := do
  let number ← boundNumber p rule value
  if number < rule.minimum ∨ rule.maximum < number then
    .error (.valueError s!"cron value {number} is outside {rule.minimum}-{rule.maximum}")
  else pure number

/-- The bounds and whether a range is given. -/
def parseSimpleRange (rule : FieldRule) (rangeText : List Char) :
    Except PyError (Int × Int × Bool) :=
  if !rangeText.contains '-' then do
    let value ← parseSimpleBound p rule rangeText
    pure (value, value, false)
  else
    let (startText, stopText) := splitOnce '-' rangeText
    if startText.isEmpty || stopText.isEmpty then
      .error (.valueError "cron ranges require a start and end")
    else do
      let start ← parseSimpleBound p rule startText
      let stop ← parseSimpleBound p rule stopText
      pure (start, stop, true)

/-- The first and the last value of an item, and whether they are the whole field. -/
def itemRange (rule : FieldRule) (rangeText : List Char) (stepped : Bool) :
    Except PyError (Int × Int × Bool) :=
  if rangeText = ['*'] then .ok (rule.minimum, rule.maximum, true)
  else do
    let (start, last, hasRange) ← parseSimpleRange p rule rangeText
    let stop := if stepped && !hasRange && rule.singleStepToMax then rule.maximum else last
    pure (start, stop,
      rule.fullRangeIsWildcard && start == rule.minimum && stop == rule.maximum)

/-- `_expand_simple_item`: the values of an item, and whether it is the wildcard. -/
def expandSimpleItem (rule : FieldRule) (item : List Char) : Except PyError (List Int × Bool) := do
  let (rangeText, step, stepped) ← splitStep item
  let (start, stop, fullRange) ← itemRange p rule rangeText stepped
  let values := cyclicValues start stop rule.minimum rule.maximum step rule.normalize
  pure (values, step == 1 && fullRange && IntSet.ofList values == IntSet.ofList rule.allValues)

/-- The field its items make up: all of `allValues` once one of them is a wildcard. -/
def fieldOf (allValues : List Int) (items : List (List Int × Bool)) (message : String) :
    Except PyError Field :=
  let wildcard := items.any (fun item => item.2)
  let values := if wildcard then allValues else items.flatMap (fun item => item.1)
  if values.isEmpty then .error (.valueError message)
  else .ok ⟨IntSet.ofList values, wildcard⟩

/-- `_parse_simple_field` -/
def parseSimpleField (rule : FieldRule) (expression : List Char) : Except PyError Field := do
  let items ← fieldItems expression
  let expanded ← items.mapM (expandSimpleItem p rule)
  fieldOf rule.allValues expanded "cron field has no values"

/-- The field of the seconds. -/
def secondsRule : FieldRule := ⟨0, 59, [], id, true, true⟩
/-- The field of the minutes. -/
def minutesRule : FieldRule := ⟨0, 59, [], id, true, true⟩
/-- The field of the hours. -/
def hoursRule : FieldRule := ⟨0, 24, [], normalizeHour, true, true⟩
/-- The field of the months. -/
def monthsRule : FieldRule := ⟨1, 12, monthNames, id, true, true⟩
/-- The field of the weekdays, inside a hash, a modulo or a range. -/
def weekdaysRule : FieldRule := ⟨0, 7, weekdayNames, normalizeDayOfWeek, false, false⟩

/-! ## Days of the month -/

/-- `(last|l|-?\d+)(?:-(last|l|-?\d+))?`, in any case -/
def monthdayRangeRx : Rx :=
  let same := p.unicode.ignoreCase
  let bound := alts [word same "last", word same "l",
    .seq (opt (.char (· == '-'))) (some1 isDigit)]
  .seq (.group 1 bound) (opt (.seq (lit "-") (.group 2 bound)))

/-- `_parse_monthday_bound` -/
def parseMonthdayBound (value : List Char) : Except PyError Int :=
  if p.unicode.lowerText value = "l".toList ∨ p.unicode.lowerText value = "last".toList then
    .ok (-1)
  else if !isInt value then
    .error (.valueError s!"invalid day-of-month value {quoted value}")
  else do
    let number ← toInt value
    if number = 0 ∨ number < -31 ∨ 31 < number then
      .error (.valueError s!"day-of-month value {number} is outside 1-31 or -31--1")
    else pure number

/-- `_parse_monthday_range`: the bounds, and whether they are the whole month. -/
def parseMonthdayRange (rangeText : List Char) : Except PyError (Int × Int × Bool) :=
  match fullmatch (monthdayRangeRx p) rangeText with
  | none => .error (.valueError s!"invalid day-of-month value {quoted rangeText}")
  | some found => do
      let start ← parseMonthdayBound p ((found.group 1).getD [])
      match found.group 2 with
      | none => pure (start, start, false)
      | some stopText =>
          let stop ← parseMonthdayBound p stopText
          pure (start, stop, true)

/-- `_expand_monthday_item` -/
def expandMonthdayItem (item : List Char) : Except PyError (List Int × Bool) := do
  let (rangeText, step, stepped) ← splitStep item
  if rangeText = ['*'] then
    pure ((IntSet.range 1 31).filter (fun day => (day - 1) % step == 0), step == 1)
  else
    let (start, last, hasRange) ← parseMonthdayRange p rangeText
    let stop := if stepped && !hasRange then (if 0 < start then 31 else -1) else last
    if 0 < start then
      let stop := if stop < 0 then 31 else stop
      pure (cyclicValues start stop 1 31 step id, step == 1 && start == 1 && stop == 31)
    else if 0 < stop then
      .error (.valueError "negative day-of-month ranges must end with a negative value")
    else pure (cyclicValues start stop (-31) (-1) step id, false)

/-- `_parse_monthday_field` -/
def parseMonthdayField (expression : List Char) : Except PyError Field := do
  let items ← fieldItems expression
  let expanded ← items.mapM (expandMonthdayItem p)
  fieldOf (IntSet.range 1 31) expanded "cron day-of-month field has no values"

/-! ## Days of the week -/

/-- `_parse_weekday_bound` -/
def parseWeekdayBound (value : List Char) : Except PyError Int :=
  normalizeDayOfWeek <$> parseSimpleBound p weekdaysRule value

/-- The index of a hash that is written as a number. -/
def parseHashIndex (value : List Char) : Except PyError Int :=
  if !isInt value then .error (.valueError "weekday hash index must be an integer")
  else do
    let number ← toInt value
    if number = 0 ∨ number < -5 ∨ 5 < number then
      .error (.valueError "weekday hash index must be between 1 and 5 or -1 and -5")
    else pure number

/-- The index of a hash: a number or the last one. -/
def parseHashNth (nthText : List Char) : Except PyError Int :=
  let lower := p.unicode.lowerText nthText
  if lower = "l".toList ∨ lower = "last".toList then .ok (-1) else parseHashIndex nthText

/-- `_parse_weekday_hash` -/
def parseWeekdayHash (item : List Char) : Except PyError WeekdaySpec :=
  if item.count '#' ≠ 1 then
    .error (.valueError "weekday hash expressions can contain one #")
  else do
    let (dayText, nthText) := splitOnce '#' item
    let day ← parseWeekdayBound p dayText
    let nth ← parseHashNth p nthText
    pure { day := day, nth := some nth }

/-- `(\d+)(?:\+(\d+))?\Z` -/
def weekdayModuloRx : Rx :=
  seqs [.group 1 (some1 isDigit), opt (.seq (lit "+") (.group 2 (some1 isDigit))), .stop]

/-- `_parse_weekday_modulo` -/
def parseWeekdayModulo (item : List Char) : Except PyError WeekdaySpec :=
  if item.count '%' ≠ 1 then
    .error (.valueError "weekday modulo expressions can contain one %")
  else
    let (dayText, moduloText) := splitOnce '%' item
    match fullmatch weekdayModuloRx moduloText with
    | none => .error (.valueError "weekday modulo expressions must use %n or %n+offset")
    | some found => do
        let modulo ← toInt ((found.group 1).getD [])
        let offset ← toInt ((found.group 2).getD ['0'])
        if modulo ≤ 0 then .error (.valueError "weekday modulo must be positive")
        else do
          let day ← parseWeekdayBound p dayText
          pure { day := day, modulo := some (modulo, offset) }

/-- The specs of one item, and whether it is a wildcard. -/
def parseWeekdayItem (item : List Char) : Except PyError (List WeekdaySpec × Bool) :=
  if item.contains '#' then do
    let spec ← parseWeekdayHash p item
    pure ([spec], false)
  else if item.contains '%' then do
    let spec ← parseWeekdayModulo p item
    pure ([spec], false)
  else do
    let field ← parseSimpleField p weekdaysRule item
    if field.wildcard then pure ([], true)
    else pure (field.values.members.map (fun value => { day := value }), false)

/-- The tuple `_parse_weekday_field` sorts by. -/
def weekdaySpecSortKey (spec : WeekdaySpec) : List Int :=
  [spec.day, spec.nth.getD 0, (spec.modulo.getD (0, 0)).1, (spec.modulo.getD (0, 0)).2]

/-- `_parse_weekday_field`: no rule is kept twice. -/
def parseWeekdayField (expression : List Char) : Except PyError WeekdayField := do
  let items ← fieldItems expression
  let parsed ← items.mapM (parseWeekdayItem p)
  let specs := (parsed.flatMap (fun item => item.1)).dedup
  if parsed.any (fun item => item.2) then pure ⟨[], true⟩
  else if specs.isEmpty then .error (.valueError "cron day-of-week field has no values")
  else pure ⟨specs.insertionSort (fun a b => weekdaySpecSortKey a ≤ weekdaySpecSortKey b), false⟩

/-! ## Time zones -/

/-- `([+-])(\d{2})(?::?(\d{2}))?\Z` -/
def offsetRx : Rx :=
  let twoDigits := Rx.seq (.char isDigit) (.char isDigit)
  seqs [.group 1 (.char (fun c => c == '+' || c == '-')), .group 2 twoDigits,
    opt (.seq (opt (lit ":")) (.group 3 twoDigits)), .stop]

theorem decimalNumber_nonneg (cs : List Char) : 0 ≤ decimalNumber cs := by
  have folded : ∀ (cs : List Char) (n : Int), 0 ≤ n →
      0 ≤ cs.foldl (fun (n : Int) c => 10 * n + ((decimalDigit c).getD 0 : Nat)) n := by
    intro cs
    induction cs with
    | nil => exact fun n h => h
    | cons c cs ih =>
        intro n h
        exact ih _ (by dsimp only; omega)
  exact folded cs 0 le_rfl

/-- `timezone(timedelta(hours=hours, minutes=minutes))`, negated after a `-`. -/
def offsetZone (negative : Bool) (hours minutes : Int) (hh : 0 ≤ hours ∧ hours ≤ 23)
    (hm : 0 ≤ minutes ∧ minutes ≤ 59) : TzInfo :=
  .fixed ((if negative then -1 else 1) * (hours * hourLength + minutes * minuteLength)) (by
    have : dayLength = 86400000000 := by decide
    have : hourLength = 3600000000 := by decide
    have : minuteLength = 60000000 := by decide
    split <;> constructor <;> simp_all <;> omega)

/-- `_parse_timezone`: `Z`, an offset or a name; an unknown name is no zone unless one is required.
-/
def parseTimezone (value : List Char) (required : Bool) : Except PyError (Option TzInfo) :=
  if value = ['Z'] then .ok (some TzInfo.utc)
  else
    match fullmatch offsetRx value with
    | some found =>
        let hourText := (found.group 2).getD []
        let minuteText := (found.group 3).getD []
        if h : decimalNumber hourText ≤ 23 ∧ decimalNumber minuteText ≤ 59 then
          .ok (some (offsetZone (found.group 1 == some ['-']) (decimalNumber hourText)
            (decimalNumber minuteText) ⟨decimalNumber_nonneg _, h.1⟩
            ⟨decimalNumber_nonneg _, h.2⟩))
        else .error (.valueError s!"invalid timezone offset {quoted value}")
    | none =>
        match p.zoneInfo value with
        | .found z => .ok (some (.zone z))
        | .notFound =>
            if required then .error (.valueError s!"invalid timezone {quoted value}")
            else .ok none
        | .failed e => .error e

/-! ## Schedules -/

/-- `text.endswith("&")`, without it -/
def stripDayAnd (expression : List Char) : Except PyError (List Char × Bool) :=
  if expression.getLast? ≠ some '&' then .ok (expression, false)
  else if expression.dropLast.isEmpty then
    .error (.valueError "cron day fields cannot contain only &")
  else .ok (expression.dropLast, true)

/-- `_split_cron_schedule`: of six words the last is a time zone if it can be. -/
def splitCronSchedule (schedule : List Char) :
    Except PyError (List (List Char) × Option TzInfo) :=
  let fields := words schedule
  let last := fields.getLastD []
  if fields.length = 5 then .ok (fields, none)
  else if fields.length = 6 then do
    let timezone ← parseTimezone p last false
    if timezone.isSome then pure (fields.dropLast, timezone) else pure (fields, none)
  else if fields.length = 7 then do
    let timezone ← parseTimezone p last true
    pure (fields.dropLast, timezone)
  else .error (.valueError "cron schedules must have five or six fields")

/-- `_day_of_month_can_match`, in a leap year. -/
def dayOfMonthCanMatch (day month : Int) : Bool :=
  let monthLength := Calendar.monthLength 2024 month
  if 0 < day then decide (day ≤ monthLength)
  else decide (1 ≤ monthLength + 1 + day) && decide (monthLength + 1 + day ≤ monthLength)

/-- `_ensure_possible_day_of_month` -/
def ensurePossibleDayOfMonth (s : Schedule) : Except PyError Unit :=
  if s.dayOfMonth.wildcard then .ok ()
  else if !s.dayAnd && !s.dayOfWeek.wildcard then .ok ()
  else if s.months.values.members.any (fun month =>
      s.dayOfMonth.values.members.any (fun day => dayOfMonthCanMatch day month)) then .ok ()
  else .error (.valueError "cron day of month is impossible for the selected months")

/-- The fields of a schedule, with the day rules joined by `&` where both ask for it. -/
def parseFields (seconds : Field) (minuteText hourText monthdayText monthText weekdayText : List Char)
    (timezone : Option TzInfo) : Except PyError Schedule := do
  let (monthdayText, monthdayAnd) ← stripDayAnd monthdayText
  let (weekdayText, weekdayAnd) ← stripDayAnd weekdayText
  let minutes ← parseSimpleField p minutesRule minuteText
  let hours ← parseSimpleField p hoursRule hourText
  let dayOfMonth ← parseMonthdayField p monthdayText
  let months ← parseSimpleField p monthsRule monthText
  let dayOfWeek ← parseWeekdayField p weekdayText
  let parsed : Schedule :=
    ⟨seconds, minutes, hours, dayOfMonth, months, dayOfWeek, monthdayAnd || weekdayAnd, timezone⟩
  ensurePossibleDayOfMonth parsed
  pure parsed

/-- `_parse_cron_schedule` -/
def parseCronSchedule (schedule : List Char) : Except PyError Schedule := do
  let (fields, timezone) ← splitCronSchedule p schedule
  match fields with
  | [minute, hour, monthday, month, weekday] =>
      parseFields p ⟨IntSet.ofList [0], false⟩ minute hour monthday month weekday timezone
  | [second, minute, hour, monthday, month, weekday] => do
      let seconds ← parseSimpleField p secondsRule second
      parseFields p seconds minute hour monthday month weekday timezone
  | _ => .error (.valueError "cron schedules must have five or six fields")

end Parsing

end DjQueue.Crontab
