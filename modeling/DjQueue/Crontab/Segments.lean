import DjQueue.Crontab.Natural

/-!
# The segments of a natural schedule

Cutting the text at `every`, `from`, `at`, `on` and `in`, and reading each segment as slots.
-/

namespace DjQueue.Crontab

open Regex

/-- `[a-z]` under `re.IGNORECASE`, before case is folded. -/
def isAsciiLetter (c : Char) : Bool := c.isAlpha

section Parsing

variable (p : Platform)

/-! ## Regular expressions -/

/-- `\s+` -/
def spaces : Rx := some1 isSpace

/-- `(.+)` -/
def anything (n : Nat) : Rx := .group n (some1 dot)

/-- `\bword\b` -/
def wholeWord (w : String) : Rx :=
  seqs [p.unicode.wordBoundary, lit w, p.unicode.wordBoundary]

/-- `\s*(?:,|\band\b|\bor\b)\s*`, in any case -/
def naturalListRx : Rx :=
  let joined (w : String) : Rx :=
    seqs [p.unicode.wordBoundary, word p.unicode.ignoreCase w, p.unicode.wordBoundary]
  seqs [.many isSpace, alts [lit ",", joined "and", joined "or"], .many isSpace]

/-- `\s+(?=(?:every|from|at|on|in)\b)`, in any case -/
def naturalSegmentBoundaryRx : Rx :=
  .seq spaces (.ahead (.seq (alts (naturalSegmentPrefixes.map (word p.unicode.ignoreCase)))
    p.unicode.wordBoundary))

/-- `\bthe\s+` -/
def articleRx : Rx := seqs [p.unicode.wordBoundary, lit "the", spaces]

/-- `(?:-|\bto\b|\bthrough\b)` -/
def rangeWordRx : Rx := alts [lit "-", wholeWord p "to", wholeWord p "through"]

/-- `(.+?)\s*(?:-|\bto\b|\bthrough\b)\s*(.+)` -/
def naturalRangeRx : Rx :=
  seqs [.group 1 (.seq (.char dot) (.few dot)), .many isSpace, rangeWordRx p, .many isSpace,
    anything 2]

/-- `(.+?)(?:\s*(am|pm|noon|midday|midnight))?` -/
def naturalTimeRx : Rx :=
  .seq (.group 1 (.seq (.char dot) (.few dot)))
    (opt (.seq (.many isSpace)
      (.group 2 (alts [lit "am", lit "pm", lit "noon", lit "midday", lit "midnight"]))))

/-- A word in its singular or plural form, blanks, and what it introduces. -/
def introducedRx (singulars : List String) (others : List String) : Rx :=
  seqs [alts (singulars.map (fun w => .seq (lit w) (opt (lit "s"))) ++ others.map lit), spaces,
    anything 2]

/-- `(\d+)([A-Za-z]+)` -/
def countUnitRx : Rx := .seq (.group 1 (some1 isDigit)) (.group 2 (some1 isAsciiLetter))

/-- `(?:(\d+)\s+)?([A-Za-z]+)` -/
def spacedCountUnitRx : Rx :=
  .seq (opt (.seq (.group 1 (some1 isDigit)) spaces)) (.group 2 (some1 isAsciiLetter))

/-! ## Lists, ranges and numbers -/

/-- `_natural_list_parts` -/
def naturalListParts (value : List Char) (message : String) : Except PyError (List (List Char)) :=
  let parts := ((split (naturalListRx p) value).map strip).filter (fun part => !part.isEmpty)
  if parts.isEmpty then .error (.valueError message) else .ok parts

/-- Text that is stripped and lowered. -/
def lowered (value : List Char) : List Char := p.unicode.lowerText (strip value)

/-- Text without a leading `the` -/
def withoutArticle (value : List Char) : List Char := sub (articleRx p) [] (lowered p value)

/-- `_split_natural_range` -/
def splitNaturalRange (segment : List Char) : Except PyError (List Char × List Char) :=
  match fullmatch (naturalRangeRx p) (withoutArticle p segment) with
  | none => .error (.valueError s!"invalid natural range {quoted segment}")
  | some found => .ok (strip ((found.group 1).getD []), strip ((found.group 2).getD []))

/-- `_natural_weekday_number` -/
def naturalWeekdayNumber (value : List Char) : Except PyError Int :=
  match naturalWeekdayNames.lookup (text (lowered p value)) with
  | some day => .ok day
  | none => .error (.valueError s!"invalid natural weekday {quoted value}")

/-- A range of weekdays inside a list. -/
def naturalWeekdayRange (value : List Char) : Except PyError SlotValue := do
  let (startText, stopText) ← splitNaturalRange p value
  let start ← naturalWeekdayNumber p startText
  let stop ← naturalWeekdayNumber p stopText
  pure (rangeValue start stop)

/-- `_parse_weekday_part` -/
def parseWeekdayPart (value : List Char) : Except PyError SlotValue :=
  if (search (rangeWordRx p) value).isSome then naturalWeekdayRange p value
  else SlotValue.int <$> naturalWeekdayNumber p value

/-- `_parse_weekday_list` -/
def parseWeekdayList (value : List Char) : Except PyError (List SlotValue) := do
  let parts ← naturalListParts p value "natural list has no values"
  parts.mapM (parseWeekdayPart p)

/-- The number a text is written as, if it is one. -/
def numeral (normalized : List Char) : Except PyError (Option Int) :=
  if isInt normalized then some <$> toInt normalized else .ok none

/-- `_parse_monthday_value` -/
def parseMonthdayValue (value : List Char) : Except PyError SlotValue := do
  let number ← numeral (withoutArticle p value)
  match number.filter (fun n => decide (1 ≤ n) && decide (n ≤ 31)) with
  | some n => pure (.int n)
  | none =>
      match naturalMonthdays.lookup (text (withoutArticle p value)) with
      | some day => pure day
      | none => .error (.valueError s!"invalid natural monthday {quoted value}")

/-- `_parse_monthday_list` -/
def parseMonthdayList (value : List Char) : Except PyError (List SlotValue) := do
  let parts ← naturalListParts p value "natural list has no values"
  parts.mapM (parseMonthdayValue p)

/-- `_parse_natural_number_word` -/
def parseNaturalNumberWord (value : List Char) : Except PyError Int :=
  match naturalSmallNumbers.lookup (text value), naturalTens.lookup (text value) with
  | some n, _ => .ok n
  | none, some n => .ok n
  | none, none =>
      match value.splitOnP (fun c => c == '-' || c == ' ') with
      | [tens, small] =>
          match naturalTens.lookup (text tens), naturalSmallNumbers.lookup (text small) with
          | some m, some n => .ok (m + n)
          | _, _ => .error (.valueError s!"invalid natural number {quoted value}")
      | _ => .error (.valueError s!"invalid natural number {quoted value}")

/-- The number a numeral or a word stands for. -/
def naturalNumber (normalized : List Char) : Except PyError Int :=
  if isInt normalized then toInt normalized else parseNaturalNumberWord normalized

/-- `_parse_natural_number` -/
def parseNaturalNumber (value : List Char) (minimum maximum : Int) : Except PyError Int := do
  let number ← naturalNumber (lowered p value)
  if number < minimum ∨ maximum < number then
    .error (.valueError s!"natural number {number} is outside {minimum}-{maximum}")
  else pure number

/-- `_parse_number_list` -/
def parseNumberList (value : List Char) : Except PyError (List SlotValue) := do
  let parts ← naturalListParts p value "natural list has no values"
  parts.mapM (fun part => SlotValue.int <$> parseNaturalNumber p part 0 59)

/-! ## Times -/

/-- `_adjust_natural_hour` -/
def adjustNaturalHour (hour : Int) (meridiem : Option (List Char)) : Int :=
  let is (w : String) : Bool := meridiem == some w.toList
  if (is "pm" || is "noon" || is "midday") && decide (hour < 12) then hour + 12
  else if (is "am" || is "midnight") && hour == 12 then 0
  else hour

/-- `\s+o'clock\Z` -/
def oClockRx : Rx := seqs [spaces, lit "o\x27clock", .stop]

/-- `h:m`, or one or two numbers. -/
def parseClockText (timeText clockText : List Char) : Except PyError (Int × Int) :=
  if clockText.contains ':' then do
    let hour ← parseNaturalNumber p (splitOnce ':' clockText).1 0 24
    let minute ← parseNaturalNumber p (splitOnce ':' clockText).2 0 59
    pure (hour, minute)
  else
    match words clockText with
    | [] => .error (.indexError "list index out of range")
    | [hourText] => do
        let hour ← parseNaturalNumber p hourText 0 24
        pure (hour, 0)
    | [hourText, minuteText] => do
        let hour ← parseNaturalNumber p hourText 0 24
        let minute ← parseNaturalNumber p minuteText 0 59
        pure (hour, minute)
    | _ => .error (.valueError s!"invalid natural time {quoted timeText}")

/-- `_parse_natural_time` -/
def parseNaturalTime (timeText : List Char) : Except PyError (Int × Int) :=
  let normalized := sub oClockRx [] (sub spaces [' '] (lowered p timeText))
  if normalized = "noon".toList ∨ normalized = "midday".toList then .ok (12, 0)
  else if normalized = "midnight".toList then .ok (0, 0)
  else
    match fullmatch naturalTimeRx normalized with
    | none => .error (.valueError s!"invalid natural time {quoted timeText}")
    | some found => do
        let (hour, minute) ← parseClockText p timeText ((found.group 1).getD [])
        pure (adjustNaturalHour hour (found.group 2), minute)

/-- `_parse_natural_times` -/
def parseNaturalTimes (segment : List Char) : Except PyError (List (Int × Int)) := do
  let parts ← naturalListParts p segment "natural schedule has no time"
  parts.mapM (parseNaturalTime p)

/-! ## Segments -/

/-- `_parse_timezone_slot` -/
def parseTimezoneSlot (segment : List Char) : Except PyError Slot := do
  let timezone ← parseTimezone p (strip segment) false
  if timezone.isNone then .error (.valueError s!"invalid timezone {quoted (strip segment)}")
  else pure { key := .tz, data0 := .one (.str (strip segment)) }

/-- The segment without a last word that is a time zone, and that word. -/
def splitAtTimezone (segment : List Char) : Except PyError (List Char × Option (List Char)) :=
  let parts := words (strip segment)
  if parts.length < 2 then .ok (strip segment, none)
  else do
    let timezone ← parseTimezone p (parts.getLastD []) false
    if timezone.isNone then pure (strip segment, none)
    else pure (strip (unwords parts.dropLast), some (parts.getLastD []))

/-- A slot of the minutes of every hour. -/
def everyHourSlot (minutes : SlotData) : Slot :=
  { key := .hm, data0 := .one star, data1 := minutes, strong := .at 1 }

/-- The slot of a time of day. -/
def timeSlot (time : Int × Int) : Slot :=
  { key := .hm, data0 := .one (.int time.1), data1 := .one (.int time.2) }

/-- The slots of the phrase behind `at`, without its zone. -/
def atSlots (segment : List Char) : Except PyError (List Slot) :=
  let lower := lowered p segment
  if lower = "the hour".toList ∨ lower = "hour".toList then
    .ok [everyHourSlot (.one (.int 0))]
  else if lower = "the minute".toList ∨ lower = "minute".toList then
    .ok [everyHourSlot (.one star)]
  else
    match fullmatch (introducedRx ["minute", "min"] []) lower,
        fullmatch (introducedRx ["second", "sec"] []) lower,
        fullmatch (introducedRx ["hour"] ["hou", "h"]) lower with
    | some found, _, _ => do
        let minutes ← parseNumberList p ((found.group 2).getD [])
        pure [everyHourSlot (.many minutes)]
    | none, some found, _ => do
        let seconds ← parseNumberList p ((found.group 2).getD [])
        pure [{ key := .second, data0 := .many seconds }]
    | none, none, some found => do
        let hours ← parseNumberList p ((found.group 2).getD [])
        pure [{ key := .hm, data0 := .many hours, data1 := .one (.int 0) }]
    | none, none, none => do
        let times ← parseNaturalTimes p segment
        pure (times.map timeSlot)

/-- `_parse_at_segment` -/
def parseAtSegment (segment : List Char) : Except PyError (List Slot) := do
  let (segment, timezoneText) ← splitAtTimezone p segment
  let slots ← atSlots p segment
  match timezoneText with
  | none => pure slots
  | some timezone => pure (slots ++ [{ key := .tz, data0 := .one (.str timezone) }])

/-- `_parse_weekday_range_slot` -/
def parseWeekdayRangeSlot (segment : List Char) : Except PyError Slot := do
  let range ← naturalWeekdayRange p segment
  pure { key := .weekday, data0 := .one range }

/-- `_parse_monthday_range_slot` -/
def parseMonthdayRangeSlot (segment : List Char) : Except PyError Slot := do
  let (startText, stopText) ← splitNaturalRange p segment
  if isInt startText && isInt stopText then
    .error (.valueError s!"invalid natural monthday range {quoted segment}")
  else do
    let start ← parseMonthdayValue p startText
    let stop ← parseMonthdayValue p stopText
    pure { key := .monthday, data0 := .one (.str (start.text ++ '-' :: stop.text)) }

/-- `_parse_hour_range_slot` -/
def parseHourRangeSlot (segment : List Char) : Except PyError Slot := do
  let (startText, stopText) ← splitNaturalRange p segment
  let start ← parseNaturalTime p startText
  let stop ← parseNaturalTime p stopText
  if start.2 ≠ stop.2 then
    .error (.valueError "natural hour ranges must use the same minute value")
  else
    pure { key := .hm, data0 := .one (rangeValue start.1 stop.1), data1 := .one (.int start.2),
           strong := .at 0 }

/-- `_parse_from_segment`: the first of three readings that succeeds. -/
def parseFromSegment (segment : List Char) : Except PyError (List Slot) :=
  firstOf (.valueError s!"invalid natural from expression {quoted segment}")
    (([parseWeekdayRangeSlot p segment, parseMonthdayRangeSlot p segment,
      parseHourRangeSlot p segment] : List (Except PyError Slot)).map (fun x => x.map ([·])))

/-- `_parse_bare_natural_segment` -/
def parseBareNaturalSegment (segment : List Char) : Except PyError (List Slot) :=
  firstOf (.valueError s!"invalid natural schedule segment {quoted segment}")
    [parseAtSegment p segment, parseFromSegment p segment]

/-- The bounds of `_validate_natural_interval_count` -/
def intervalMaximum : IntervalUnit → Option Nat
  | .second => some 59
  | .minute => some 59
  | .hour => some 23
  | .day => some 31
  | .month => some 12
  | .week => none
  | .year => none

/-- `_validate_natural_interval_count` -/
def validateNaturalIntervalCount (count : Int) (unit : IntervalUnit) : Except PyError Unit :=
  match intervalMaximum unit with
  | some maximum =>
      if (maximum : Int) < count then
        .error (.valueError s!"natural {unit.name} intervals cannot exceed {maximum}")
      else .ok ()
  | none => .ok ()

/-- The slots of an interval; a step of one is the star. -/
def intervalSlots (count : Int) (unit : IntervalUnit) : Except PyError (List Slot) :=
  let step : SlotValue := if count = 1 then star else .str ('*' :: '/' :: digits count)
  match unit with
  | .second => .ok [{ key := .second, data0 := .one step }]
  | .minute => .ok [{ key := .hm, data0 := .one star, data1 := .one step, strong := .at 1 }]
  | .hour => .ok [{ key := .hm, data0 := .one step, data1 := .one (.int 0), weak := .at 1 }]
  | .day => .ok [{ key := .monthday, data0 := .one step, weak := .always }]
  | .month => .ok [{ key := .month, data0 := .one step }]
  | .week =>
      if count ≠ 1 then
        .error (.valueError "natural week intervals only support every week")
      else .ok [{ key := .weekday, data0 := .one (.int 0), weak := .always }]
  | .year =>
      if count ≠ 1 then
        .error (.valueError "natural year intervals only support every year")
      else .ok [{ key := .month, data0 := .one (.int 1), weak := .always },
        { key := .monthday, data0 := .one (.int 1), weak := .always }]

/-- `_parse_every_interval_slot` -/
def parseEveryIntervalSlot (subject : List Char) : Except PyError (Option (List Slot)) :=
  match (fullmatch countUnitRx subject).or (fullmatch spacedCountUnitRx subject) with
  | none => .ok none
  | some found =>
      let unitText := (found.group 2).getD []
      let unit := if unitText = ['M'] then some IntervalUnit.month
        else naturalIntervalUnits.lookup (text (p.unicode.lowerText unitText))
      match unit with
      | none => .ok none
      | some unit => do
          let count ← toInt ((found.group 1).getD ['1'])
          if count ≤ 0 then .error (.valueError "natural interval count must be positive")
          else do
            validateNaturalIntervalCount count unit
            some <$> intervalSlots count unit

/-- `(.+)\s+of the month` -/
def ofTheMonthRx : Rx := seqs [anything 1, spaces, lit "of the month"]

/-- `_parse_every_subject` -/
def parseEverySubject (subject : List Char) : Except PyError (List Slot) :=
  let lower := lowered p subject
  if lower = "weekday".toList ∨ lower = "weekdays".toList then
    .ok [{ key := .weekday, data0 := .one (rangeValue 1 5), weak := .always }]
  else do
    match ← parseEveryIntervalSlot p (strip subject) with
    | some slots => pure slots
    | none =>
        match fullmatch ofTheMonthRx lower with
        | some found => do
            let days ← parseMonthdayList p ((found.group 1).getD [])
            pure [{ key := .monthday, data0 := .many days }]
        | none => do
            let days ← parseWeekdayList p lower
            pure [{ key := .weekday, data0 := .many days }]

/-- The segment as a whole, or cut before one of its words into a subject and a time. -/
def subjectAndTime (parseSubject : List Char → Except PyError (List Slot)) (last : PyError)
    (segment : List Char) : Except PyError (List Slot) :=
  let tokens := words segment
  firstOf last (parseSubject segment :: (List.range' 1 (tokens.length - 1)).map (fun index => do
    let subject ← parseSubject (unwords (tokens.take index))
    let time ← parseAtSegment p (unwords (tokens.drop index))
    pure (subject ++ time)))

/-- `_parse_every_segment` -/
def parseEverySegment (segment : List Char) : Except PyError (List Slot) :=
  subjectAndTime p (parseEverySubject p)
    (.valueError s!"invalid natural every expression {quoted segment}") segment

/-- `(?:the\s+)?word` -/
def optionalArticleRx (w : String) : Rx := .seq (opt (.seq (lit "the") spaces)) (lit w)

/-- `_parse_on_object` -/
def parseOnObject (segment : List Char) : Except PyError (List Slot) :=
  let lower := lowered p segment
  match fullmatch (introducedRx ["day"] []) lower, fullmatch (introducedRx ["minute"] []) lower,
      fullmatch (introducedRx ["second"] []) lower with
  | some found, _, _ => do
      let days ← parseMonthdayList p ((found.group 2).getD [])
      pure [{ key := .monthday, data0 := .many days }]
  | none, some found, _ => do
      let minutes ← parseNumberList p ((found.group 2).getD [])
      pure [everyHourSlot (.many minutes)]
  | none, none, some found => do
      let seconds ← parseNumberList p ((found.group 2).getD [])
      pure [{ key := .second, data0 := .many seconds }]
  | none, none, none =>
      if (fullmatch (optionalArticleRx "hour") lower).isSome then
        pure [everyHourSlot (.one (.int 0))]
      else if (fullmatch (optionalArticleRx "minute") lower).isSome then
        pure [everyHourSlot (.one star)]
      else
        match fullmatch (seqs [lit "the", spaces, anything 1]) lower with
        | some found => do
            let days ← parseMonthdayList p ((found.group 1).getD [])
            pure [{ key := .monthday, data0 := .many days }]
        | none => do
            let days ← parseWeekdayList p lower
            pure [{ key := .weekday, data0 := .many days }]

/-- `_parse_on_segment` -/
def parseOnSegment (segment : List Char) : Except PyError (List Slot) :=
  subjectAndTime p (parseOnObject p)
    (.valueError s!"invalid natural on expression {quoted segment}") segment

/-- `_parse_natural_segment` -/
def parseNaturalSegment (marker : Option String) (segment : List Char) :
    Except PyError (List Slot) :=
  match marker with
  | some "every" => parseEverySegment p segment
  | some "from" => parseFromSegment p segment
  | some "at" => parseAtSegment p segment
  | some "in" => (parseTimezoneSlot p segment).map ([·])
  | some "on" => do
      let timezone ← parseTimezone p segment false
      if timezone.isSome then (parseTimezoneSlot p segment).map ([·])
      else parseOnSegment p segment
  | _ => parseBareNaturalSegment p segment

/-! ## The text -/

/-- `_strip_natural_separator` -/
def stripNaturalSeparator (value : List Char) : List Char :=
  stripBy (fun c => c == ' ' || c == ',' || c == '\t') value

/-- The segment up to the next marker, and what follows. -/
def takeNaturalSegment (value : List Char) : List Char × List Char :=
  let value := stripNaturalSeparator value
  match search (naturalSegmentBoundaryRx p) value with
  | none => (value, [])
  | some (before, after) => (strip before, after)

/-- `_take_natural_prefixed_segment` -/
def takeNaturalPrefixedSegment (value : List Char) : Option String × List Char × List Char :=
  let value := stripNaturalSeparator value
  let lower := p.unicode.lowerText value
  match naturalSegmentPrefixes.find? (fun w => (w.toList ++ [' ']).isPrefixOf lower) with
  | some w => (some w, takeNaturalSegment p (value.drop (w.length + 1)))
  | none => (none, takeNaturalSegment p value)

/-- The slots of one segment; an empty one has none. -/
def segmentSlots (marker : Option String) (segment : List Char) : Except PyError (List Slot) :=
  if segment.isEmpty then .ok [] else parseNaturalSegment p marker segment

/-- Each segment takes at least the blank before the next one, so that the length of the text
bounds their number. -/
def parseSegments : Nat → List Char → Except PyError (List Slot)
  | 0, _ => .ok []
  | fuel + 1, remaining =>
      if remaining.isEmpty then .ok []
      else do
        let (marker, segment, rest) := takeNaturalPrefixedSegment p remaining
        let slots ← segmentSlots p marker segment
        let more ← parseSegments fuel rest
        pure (slots ++ more)

/-- `_parse_natural_slots` -/
def parseNaturalSlots (schedule : List Char) : Except PyError (List Slot) := do
  let slots ← parseSegments p (schedule.length + 1) schedule
  if slots.isEmpty then .error (.valueError "natural schedule has no time information")
  else pure slots

/-- `_expand_natural_schedule` -/
def expandNaturalSchedule (schedule : List Char) : Except PyError (List (List Char)) :=
  let normalized := sub spaces [' '] (strip schedule)
  if normalized.isEmpty then .error (.valueError "natural schedule cannot be empty")
  else if 256 < normalized.length then .error (.valueError "natural schedule is too long")
  else do
    let slots ← parseNaturalSlots p normalized
    naturalSlotsToCrons slots

end Parsing

end DjQueue.Crontab
