import DjQueue.Crontab.Fields

/-!
# Natural schedules

`every weekday at 9:30 and 17:00 in Europe/Berlin`: the text is cut into segments, the segments
give slots, and the slots are merged and printed as cron expressions.
-/

namespace DjQueue.Crontab

open Regex

/-! ## Words -/

/-- `_NATURAL_SEGMENT_PREFIXES` -/
def naturalSegmentPrefixes : List String := ["every", "from", "at", "on", "in"]

/-- `_NATURAL_WEEKDAY_NAMES` -/
def naturalWeekdayNames : List (String × Int) :=
  [("sunday", 0), ("sun", 0), ("monday", 1), ("mon", 1), ("tuesday", 2), ("tue", 2), ("tues", 2),
    ("wednesday", 3), ("wed", 3), ("thursday", 4), ("thu", 4), ("thur", 4), ("thurs", 4),
    ("friday", 5), ("fri", 5), ("saturday", 6), ("sat", 6)]

/-- `_NATURAL_SMALL_NUMBERS` -/
def naturalSmallNumbers : List (String × Int) :=
  [("zero", 0), ("oh", 0), ("one", 1), ("two", 2), ("three", 3), ("four", 4), ("five", 5),
    ("six", 6), ("seven", 7), ("eight", 8), ("nine", 9), ("ten", 10), ("eleven", 11),
    ("twelve", 12), ("thirteen", 13), ("fourteen", 14), ("fifteen", 15), ("sixteen", 16),
    ("seventeen", 17), ("eighteen", 18), ("nineteen", 19)]

/-- `_NATURAL_TENS` -/
def naturalTens : List (String × Int) :=
  [("twenty", 20), ("thirty", 30), ("forty", 40), ("fifty", 50)]

/-- The units of an interval. -/
inductive IntervalUnit where
  | second | minute | hour | day | month | week | year
deriving DecidableEq, Repr

/-- The name of a unit in a message. -/
def IntervalUnit.name : IntervalUnit → String
  | .second => "second"
  | .minute => "minute"
  | .hour => "hour"
  | .day => "day"
  | .month => "month"
  | .week => "week"
  | .year => "year"

/-- `_NATURAL_INTERVAL_UNITS` -/
def naturalIntervalUnits : List (String × IntervalUnit) :=
  [("s", .second), ("sec", .second), ("secs", .second), ("second", .second), ("seconds", .second),
    ("m", .minute), ("min", .minute), ("mins", .minute), ("minute", .minute),
    ("minutes", .minute), ("h", .hour), ("hour", .hour), ("hours", .hour), ("d", .day),
    ("day", .day), ("days", .day), ("month", .month), ("months", .month), ("week", .week),
    ("year", .year)]

/-! ## Slots -/

/-- A number or a text that stands in a printed field. -/
inductive SlotValue where
  | int (n : Int)
  | str (s : List Char)
deriving DecidableEq, Repr

/-- The wildcard of a field. -/
def star : SlotValue := .str ['*']

/-- `f"{start}-{end}"` -/
def rangeValue (start stop : Int) : SlotValue := .str (digits start ++ '-' :: digits stop)

/-- `str(value)` -/
def SlotValue.text : SlotValue → List Char
  | .int n => digits n
  | .str s => s

/-- The days named in `_NATURAL_MONTHDAYS`, `L` for the last one. -/
def naturalMonthdays : List (String × SlotValue) :=
  [("1st", .int 1), ("2nd", .int 2), ("3rd", .int 3), ("21st", .int 21), ("22nd", .int 22),
    ("23rd", .int 23), ("31st", .int 31), ("first", .int 1), ("second", .int 2),
    ("third", .int 3), ("fourth", .int 4), ("fifth", .int 5), ("sixth", .int 6),
    ("seventh", .int 7), ("eighth", .int 8), ("ninth", .int 9), ("tenth", .int 10),
    ("eleventh", .int 11), ("twelfth", .int 12), ("thirteenth", .int 13),
    ("fourteenth", .int 14), ("fifteenth", .int 15), ("sixteenth", .int 16),
    ("seventeenth", .int 17), ("eighteenth", .int 18), ("nineteenth", .int 19),
    ("twentieth", .int 20), ("twenty-first", .int 21), ("twenty-second", .int 22),
    ("twenty-third", .int 23), ("twenty-fourth", .int 24), ("twenty-fifth", .int 25),
    ("twenty-sixth", .int 26), ("twenty-seventh", .int 27), ("twenty-eighth", .int 28),
    ("twenty-ninth", .int 29), ("thirtieth", .int 30), ("thirty-first", .int 31),
    ("last", .str ['L'])] ++
  (IntSet.range 4 30).map (fun day => (toString day ++ "th", .int day))

/-- `_NaturalSlot.key` -/
inductive SlotKey where
  | hm | second | weekday | monthday | month | tz
deriving DecidableEq, Repr

/-- A slot's data: `None`, one value or a list of them. -/
inductive SlotData where
  | none
  | one (v : SlotValue)
  | many (vs : List SlotValue)
deriving DecidableEq, Repr

/-- `weak` and `strong`: `None`, an index or `True`. -/
inductive Grade where
  | none
  | at (index : Nat)
  | always
deriving DecidableEq, Repr

namespace Grade

/-- `grade == index or grade is True` -/
def covers (g : Grade) (index : Nat) : Bool :=
  match g with
  | .none => false
  | .at i => i == index
  | .always => true

/-- `bool(grade)` -/
def truthy : Grade → Bool
  | .none => false
  | .at i => i != 0
  | .always => true

end Grade

/-- `_NaturalSlot` -/
structure Slot where
  key : SlotKey
  data0 : SlotData
  data1 : SlotData := .none
  weak : Grade := .none
  strong : Grade := .none
deriving DecidableEq, Repr

/-- `data == "*"` -/
def SlotData.isStar (data : SlotData) : Bool := data == .one star

/-- `_NaturalSlot.values` -/
def SlotData.values : SlotData → List SlotValue
  | .none => []
  | .one v => [v]
  | .many vs => vs

/-- `_natural_data_values` -/
def SlotData.explicit (data : SlotData) : List SlotValue := if data.isStar then [] else data.values

/-- `(\d+)-(\d+)` -/
def hourRangeRx : Rx := seqs [.group 1 (some1 isDigit), lit "-", .group 2 (some1 isDigit)]

namespace Slot

/-- `_hour_range` of a slot of whole hours. -/
def hourRange (slot : Slot) : Except PyError (Option (Int × Int)) :=
  if slot.key ≠ .hm ∨ slot.data1 ≠ .one (.int 0) then .ok none
  else
    match slot.data0 with
    | .one value =>
        match fullmatch hourRangeRx value.text with
        | none => .ok none
        | some found => do
            let start ← toInt ((found.group 1).getD [])
            let stop ← toInt ((found.group 2).getD [])
            pure (some (start, stop))
    | _ => .ok none

/-- The hour range of a slot that meets one whose minutes are strong. -/
def hourRangeAgainst (slot other : Slot) : Except PyError (Option (Int × Int)) :=
  if other.strong.covers 1 then slot.hourRange else .ok none

/-- `_natural_hour_range` -/
def naturalHourRange (hours : Int × Int) : SlotData :=
  if hours.1 = hours.2 - 1 then .one (.int hours.1) else .one (rangeValue hours.1 (hours.2 - 1))

/-- What is left of two data that no hour range replaces. -/
def merge (slot other : Slot) (index : Nat) (left right : SlotData) : SlotData :=
  if slot.strong.covers index then left
  else if other.strong.covers index then right
  else if other.weak.covers index then left
  else if slot.weak.covers index then right
  else if left.isStar && right.isStar then .one star
  else .many (left.explicit ++ right.explicit)

/-- The first data of two slots that are joined. -/
def conflate0 (slot other : Slot) : Except PyError SlotData :=
  match slot.data0, other.data0 with
  | left, .none => .ok left
  | .none, right => .ok right
  | left, right => do
      let own ← slot.hourRangeAgainst other
      match own with
      | some hours => pure (naturalHourRange hours)
      | none => do
          let others ← other.hourRangeAgainst slot
          match others with
          | some hours => pure (naturalHourRange hours)
          | none => pure (slot.merge other 0 left right)

/-- The second data of two slots that are joined. -/
def conflate1 (slot other : Slot) : SlotData :=
  match slot.data1, other.data1 with
  | left, .none => left
  | .none, right => right
  | left, right => slot.merge other 1 left right

/-- `_NaturalSlot.append` -/
def append (slot other : Slot) : Except PyError Slot := do
  let data0 ← slot.conflate0 other
  pure { key := slot.key, data0 := data0, data1 := slot.conflate1 other }

end Slot

/-! ## From slots to cron expressions -/

/-- `_natural_sort_key`: numbers, also when written as texts, before other texts. -/
def naturalSortKey : SlotValue → Int ⊕ List Char
  | .int n => .inl n
  | .str s => if isInt s then .inl ((toInt s).toOption.getD 0) else .inr s

/-- Numbers come before text, each in its own order. -/
def sortKeyLe (a b : SlotValue) : Prop :=
  match naturalSortKey a, naturalSortKey b with
  | .inl m, .inl n => m ≤ n
  | .inl _, .inr _ => True
  | .inr _, .inl _ => False
  | .inr s, .inr s' => ¬ s' < s

instance : DecidableRel sortKeyLe := fun a b =>
  match ha : naturalSortKey a, hb : naturalSortKey b with
  | .inl m, .inl n => decidable_of_iff (m ≤ n) (by simp only [sortKeyLe, ha, hb])
  | .inl _, .inr _ => .isTrue (by simp only [sortKeyLe, ha, hb])
  | .inr _, .inl _ => .isFalse (by simp only [sortKeyLe, ha, hb, not_false_eq_true])
  | .inr s, .inr s' => decidable_of_iff (¬ s' < s) (by simp only [sortKeyLe, ha, hb])

/-- `sorted(set(values), key=_natural_sort_key)` -/
def sortedValues (values : List SlotValue) : List SlotValue := values.dedup.insertionSort sortKeyLe

/-- `_natural_field_text` -/
def naturalFieldText (values : List SlotValue) : List Char :=
  [','].intercalate ((sortedValues values).map SlotValue.text)

/-- A dictionary by slot key, in the order of its insertions. -/
abbrev Slots := List (SlotKey × Slot)

/-- Adds a slot to the one of its key, or as the first of its key. -/
def addSlot (slots : Slots) (slot : Slot) : Except PyError Slots :=
  match slots.lookup slot.key with
  | none => .ok (slots ++ [(slot.key, slot)])
  | some old => do
      let new ← old.append slot
      pure (slots.map (fun entry => if entry.1 = slot.key then (entry.1, new) else entry))

/-- `_natural_slot_values` -/
def naturalSlotValues (slots : Slots) (key : SlotKey) (default : SlotValue) : List SlotValue :=
  match slots.lookup key with
  | none => [default]
  | some slot => slot.data0.values

/-- `_natural_cron_from_hm` -/
def naturalCronFromHm (slots : Slots) (hm : Slot) : List Char :=
  let seconds := naturalSlotValues slots .second (.str ['0'])
  let timezone := (slots.lookup .tz).map (fun slot => slot.data0.values)
  let fields := (if seconds = [.str ['0']] then [] else [seconds]) ++
    [hm.data1.values, hm.data0.values, naturalSlotValues slots .monthday star,
      naturalSlotValues slots .month star, naturalSlotValues slots .weekday star] ++
    timezone.toList
  unwords (fields.map naturalFieldText)

/-- Merges graded slots into their neighbours until none is left. -/
def mergeGraded : Nat → List Slot → Except PyError (List Slot)
  | 0, hms => .ok hms
  | fuel + 1, hms =>
      if hms.length ≤ 1 then .ok hms
      else
        match hms.findIdx? (fun hm => hm.weak.truthy || hm.strong.truthy) with
        | none => .ok hms
        | some graded =>
            let other := if graded = 0 then 1 else graded - 1
            match hms[graded]?, hms[other]? with
            | some slot, some neighbour => do
                let merged ← slot.append neighbour
                mergeGraded fuel ((hms.set graded merged).eraseIdx other)
            | _, _ => .ok hms

/-- Puts a minute into the group of its hours. -/
def addMinute (groups : List (List SlotValue × List SlotValue)) (hours : List SlotValue)
    (minute : SlotValue) : List (List SlotValue × List SlotValue) :=
  if groups.any (fun group => group.1 == hours) then
    groups.map (fun group => if group.1 = hours then (hours, group.2 ++ [minute]) else group)
  else groups ++ [(hours, [minute])]

/-- The minutes by the hours they go with, in order of appearance. -/
def groupByHours (hms : List Slot) : List (List SlotValue × List SlotValue) :=
  hms.foldl (fun groups hm =>
    hm.data1.values.foldl (fun groups minute =>
      addMinute groups (sortedValues hm.data0.values) minute) groups) []

/-- `_determine_natural_hms` -/
def determineNaturalHms (hms : List Slot) : Except PyError (List Slot) :=
  if hms.isEmpty then .ok [⟨.hm, .one star, .one star, .none, .none⟩]
  else do
    let merged ← mergeGraded hms.length hms
    pure ((groupByHours merged).map (fun group =>
      ⟨.hm, .many group.1, .many (sortedValues group.2), .none, .none⟩))

/-- The time that is put where a date has none. -/
def midnightSlot : Slot := { key := .hm, data0 := .one (.int 0), data1 := .one (.int 0) }

/-- The day that is put where a month has none. -/
def firstOfMonthSlot : Slot := { key := .monthday, data0 := .one (.int 1) }

/-- A key that is in the dictionary. -/
def Slots.has (slots : Slots) (key : SlotKey) : Bool := (slots.lookup key).isSome

/-- The clock slots, midnight where a day or a month comes without a time. -/
def withTime (grouped : Slots) (hms : List Slot) : List Slot :=
  if hms.isEmpty && (grouped.has .monthday || grouped.has .weekday || grouped.has .month) then
    [midnightSlot]
  else hms

/-- A month without a day is its first day's, unless a weekday came without a time: that is the
branch before the `elif`. -/
def withMonthday (grouped : Slots) (hms : List Slot) : Slots :=
  if (grouped.has .monthday || grouped.has .weekday) && hms.isEmpty then grouped
  else if grouped.has .month && !grouped.has .monthday then
    grouped ++ [(.monthday, firstOfMonthSlot)]
  else grouped

/-- `_natural_slots_to_crons` -/
def naturalSlotsToCrons (slots : List Slot) : Except PyError (List (List Char)) := do
  let hms := slots.filter (fun slot => slot.key == .hm)
  let grouped ← (slots.filter (fun slot => slot.key != .hm)).foldlM addSlot []
  let determined ← determineNaturalHms (withTime grouped hms)
  pure (determined.map (naturalCronFromHm (withMonthday grouped hms)))

end DjQueue.Crontab
