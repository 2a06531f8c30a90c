import DjQueue.Crontab.Printed

/-!
# One time zone for one text

Every slot the parser makes prints as words, so that the schedules of one text share their time
zone.
-/

namespace DjQueue.Crontab

open Regex Relational

/-! ## The slots of the parser -/

section Slots

variable {p : Platform}

/-- Every slot prints to fields that read back. -/
def AllPrintable (slots : List Slot) : Prop := ∀ slot ∈ slots, slot.Printable

/-- A list of values that is not empty and prints without blanks. -/
def AllSolid (values : List SlotValue) : Prop := values ≠ [] ∧ ∀ v ∈ values, Solid v.text

theorem allPrintable_one {slot : Slot} (h : slot.Printable) : AllPrintable [slot] := by
  intro slot' mem
  rw [List.mem_singleton.mp mem]
  exact h

theorem allPrintable_append {slots slots' : List Slot} (h : AllPrintable slots)
    (h' : AllPrintable slots') : AllPrintable (slots ++ slots') := by
  intro slot mem
  rcases List.mem_append.mp mem with left | right
  · exact h slot left
  · exact h' slot right

theorem printable_tz (data0 : SlotData) : (⟨.tz, data0, .none, .none, .none⟩ : Slot).Printable :=
  ⟨fun h => absurd rfl h, fun h => absurd rfl h, fun h => absurd rfl h⟩

/-- A slot of one value prints it as one word. -/
theorem printable_one {key : SlotKey} {v : SlotValue} {data1 : SlotData} {weak strong : Grade}
    (hv : Solid v.text) (h1 : data1.Solid) :
    (⟨key, .one v, data1, weak, strong⟩ : Slot).Printable :=
  Slot.printable_of (by simp [SlotData.values]) (SlotData.solid_one hv) h1

/-- A slot of several values prints them with commas between. -/
theorem printable_many {key : SlotKey} {values : List SlotValue} {data1 : SlotData}
    {weak strong : Grade} (hv : AllSolid values) (h1 : data1.Solid) :
    (⟨key, .many values, data1, weak, strong⟩ : Slot).Printable :=
  Slot.printable_of hv.1 hv.2 h1

/-- Values with commas between are one word. -/
theorem solid_many {values : List SlotValue} (h : AllSolid values) : (SlotData.many values).Solid :=
  h.2

theorem solid_zero : (SlotData.one (.int 0)).Solid := SlotData.solid_one (solid_int 0)

/-- The slot of `hourly` names no hour. -/
theorem everyHourSlot_printable {minutes : SlotData} (h : minutes.Solid) :
    AllPrintable [everyHourSlot minutes] :=
  allPrintable_one (printable_one solid_star h)

/-- A list of values, each read from a part of the text. -/
theorem list_solid {value : List Char} {message : String}
    {parsePart : List Char → Except PyError SlotValue}
    (each : ∀ part, Yields (fun v => Solid v.text) (parsePart part)) :
    Yields AllSolid (do
      let parts ← naturalListParts p value message
      parts.mapM parsePart) := by
  refine Yields.bind (P := (· ≠ [])) ?_ ?_
  · unfold naturalListParts
    dsimp only
    split
    · exact Yields.error
    · refine Yields.ok ?_
      intro empty
      rename_i some
      exact some (List.isEmpty_iff.mpr empty)
  · intro parts some
    exact (Yields.mapM_ne_nil some).and (Yields.mapM (fun part _ => each part))

/-- The weekday phrases are ranges of two names or numbers. -/
theorem naturalWeekdayRange_solid (value : List Char) :
    Yields (fun v => Solid v.text) (naturalWeekdayRange p value) := by
  refine Yields.bind (Yields.trivial _) ?_
  rintro ⟨startText, stopText⟩ -
  refine Yields.bind (Yields.trivial _) (fun start _ => ?_)
  refine Yields.bind (Yields.trivial _) (fun stop _ => ?_)
  exact Yields.pure (solid_rangeValue start stop)

theorem parseWeekdayList_solid (value : List Char) :
    Yields AllSolid (parseWeekdayList p value) := by
  refine list_solid ?_
  intro part
  unfold parseWeekdayPart
  split
  · exact naturalWeekdayRange_solid part
  · exact Yields.functorMap (Yields.trivial _) (fun day _ => solid_int day)

/-- The words for days of the month are numbers. -/
theorem naturalMonthdays_solid : ∀ entry ∈ naturalMonthdays, Solid entry.2.text := by
  intro entry mem
  have all : naturalMonthdays.all (fun entry => !entry.2.text.isEmpty &&
      entry.2.text.all (fun c => !isSpace c)) = true := by decide +kernel
  have own := List.all_eq_true.mp all entry mem
  rw [Bool.and_eq_true, Bool.not_eq_true'] at own
  exact solid_of_all own.1 own.2

/-- A day of the month is a number or `L` -/
theorem parseMonthdayValue_solid (value : List Char) :
    Yields (fun v => Solid v.text) (parseMonthdayValue p value) := by
  refine Yields.bind (Yields.trivial _) ?_
  intro number _
  split
  · exact Yields.pure (solid_int _)
  · split
    · rename_i day found
      obtain ⟨before, after, split, -⟩ := List.lookup_eq_some_iff.mp found
      refine Yields.pure (naturalMonthdays_solid (text (withoutArticle p value), day) ?_)
      rw [split]
      exact List.mem_append_right _ List.mem_cons_self
    · exact Yields.error

theorem parseMonthdayList_solid (value : List Char) :
    Yields AllSolid (parseMonthdayList p value) :=
  list_solid parseMonthdayValue_solid

theorem parseNumberList_solid (value : List Char) : Yields AllSolid (parseNumberList p value) :=
  list_solid (fun _ => Yields.functorMap (Yields.trivial _) (fun number _ => solid_int number))

theorem parseTimezoneSlot_printable (segment : List Char) :
    Yields Slot.Printable (parseTimezoneSlot p segment) := by
  refine Yields.bind (Yields.trivial _) ?_
  intro timezone _
  split
  · exact Yields.error
  · exact Yields.pure (printable_tz _)

theorem atSlots_printable (segment : List Char) : Yields AllPrintable (atSlots p segment) := by
  unfold atSlots
  dsimp only
  split_ifs
  · exact Yields.ok (everyHourSlot_printable solid_zero)
  · exact Yields.ok (everyHourSlot_printable (SlotData.solid_one solid_star))
  · split
    · exact Yields.bind (parseNumberList_solid _)
        (fun minutes h => Yields.pure (everyHourSlot_printable (solid_many h)))
    · exact Yields.bind (parseNumberList_solid _)
        (fun seconds h => Yields.pure (allPrintable_one (printable_many h solid_none)))
    · exact Yields.bind (parseNumberList_solid _)
        (fun hours h => Yields.pure (allPrintable_one (printable_many h solid_zero)))
    · refine Yields.bind (Yields.trivial _) ?_
      intro times _
      refine Yields.pure ?_
      intro slot mem
      obtain ⟨time, -, rfl⟩ := List.mem_map.mp mem
      exact printable_one (solid_int _) (SlotData.solid_one (solid_int _))

theorem parseAtSegment_printable (segment : List Char) :
    Yields AllPrintable (parseAtSegment p segment) := by
  refine Yields.bind (Yields.trivial _) ?_
  rintro ⟨rest, timezoneText⟩ -
  refine Yields.bind (atSlots_printable rest) ?_
  intro slots h
  cases timezoneText with
  | none => exact Yields.pure h
  | some timezone =>
      exact Yields.pure (allPrintable_append h (allPrintable_one (printable_tz _)))

/-- Of several readings one holds, if each that succeeds would. -/
theorem firstOf_yields {α : Type} {P : α → Prop} {last : PyError} {l : List (Except PyError α)}
    (h : ∀ x ∈ l, Yields P x) : Yields P (firstOf last l) := by
  induction l with
  | nil => exact Yields.error
  | cons x rest ih =>
      unfold firstOf orOnValueError
      split
      · exact Yields.ok (h (.ok _) List.mem_cons_self _ rfl)
      · split
        · exact ih (fun x' mem => h x' (List.mem_cons_of_mem _ mem))
        · exact Yields.error

theorem parseFromSegment_printable (segment : List Char) :
    Yields AllPrintable (parseFromSegment p segment) := by
  refine firstOf_yields ?_
  intro x mem
  obtain ⟨slot, inside, rfl⟩ := List.mem_map.mp mem
  refine Yields.map (P := Slot.Printable) ?_ (fun slot h => allPrintable_one h)
  simp only [List.mem_cons, List.not_mem_nil, or_false] at inside
  rcases inside with rfl | rfl | rfl
  · refine Yields.bind (naturalWeekdayRange_solid segment) ?_
    exact fun range h => Yields.pure (printable_one h solid_none)
  · refine Yields.bind (Yields.trivial _) ?_
    rintro ⟨startText, stopText⟩ -
    dsimp only
    split
    · exact Yields.error
    · refine Yields.bind (parseMonthdayValue_solid startText) (fun start hs => ?_)
      refine Yields.bind (parseMonthdayValue_solid stopText) (fun stop hl => ?_)
      refine Yields.pure (printable_one (solid_append hs ?_) solid_none)
      intro c mem
      rcases List.mem_cons.mp mem with rfl | mem
      · decide
      · exact hl.2 c mem
  · refine Yields.bind (Yields.trivial _) ?_
    rintro ⟨startText, stopText⟩ -
    refine Yields.bind (Yields.trivial _) (fun start _ => ?_)
    refine Yields.bind (Yields.trivial _) (fun stop _ => ?_)
    split
    · exact Yields.error
    · exact Yields.pure (printable_one (solid_rangeValue _ _) (SlotData.solid_one (solid_int _)))

theorem intervalSlots_printable (count : Int) (unit : IntervalUnit) :
    Yields AllPrintable (intervalSlots count unit) := by
  have step : Solid (if count = 1 then star else .str ('*' :: '/' :: digits count)).text := by
    split
    · exact solid_star
    · exact solid_append (a := ['*', '/']) (solid_of_all rfl rfl) (solid_digits count).2
  have zero : Solid (SlotValue.int 0).text := solid_int 0
  have one : Solid (SlotValue.int 1).text := solid_int 1
  cases unit with
  | second => exact Yields.ok (allPrintable_one (printable_one step solid_none))
  | minute =>
      exact Yields.ok (allPrintable_one (printable_one solid_star (SlotData.solid_one step)))
  | hour => exact Yields.ok (allPrintable_one (printable_one step solid_zero))
  | day => exact Yields.ok (allPrintable_one (printable_one step solid_none))
  | month => exact Yields.ok (allPrintable_one (printable_one step solid_none))
  | week =>
      unfold intervalSlots
      dsimp only
      split
      · exact Yields.error
      · exact Yields.ok (allPrintable_one (printable_one zero solid_none))
  | year =>
      unfold intervalSlots
      dsimp only
      split
      · exact Yields.error
      · exact Yields.ok (allPrintable_append (allPrintable_one (printable_one one solid_none))
          (allPrintable_one (printable_one one solid_none)))

/-- An interval of a phrase, if it is one. -/
theorem parseEveryIntervalSlot_printable (subject : List Char) :
    Yields (fun slots => ∀ l ∈ slots, AllPrintable l) (parseEveryIntervalSlot p subject) := by
  have nothing : ∀ l ∈ (none : Option (List Slot)), AllPrintable l := by
    intro l mem
    cases mem
  unfold parseEveryIntervalSlot
  split
  · exact Yields.ok nothing
  · dsimp only
    split
    · exact Yields.ok nothing
    · refine Yields.bind (Yields.trivial _) (fun count _ => ?_)
      split
      · exact Yields.error
      · refine Yields.bind (Yields.trivial _) (fun valid _ => ?_)
        refine Yields.functorMap (intervalSlots_printable _ _) ?_
        intro slots h l mem
        rw [← Option.mem_some.mp mem]
        exact h

theorem monthdays_printable (value : List Char) : Yields AllPrintable (do
    let days ← parseMonthdayList p value
    pure [{ key := .monthday, data0 := .many days }]) :=
  Yields.bind (parseMonthdayList_solid _)
    (fun _ h => Yields.pure (allPrintable_one (printable_many h solid_none)))

theorem weekdays_printable (value : List Char) : Yields AllPrintable (do
    let days ← parseWeekdayList p value
    pure [{ key := .weekday, data0 := .many days }]) :=
  Yields.bind (parseWeekdayList_solid _)
    (fun _ h => Yields.pure (allPrintable_one (printable_many h solid_none)))

theorem parseEverySubject_printable (subject : List Char) :
    Yields AllPrintable (parseEverySubject p subject) := by
  unfold parseEverySubject
  dsimp only
  split
  · exact Yields.ok (allPrintable_one (printable_one (solid_rangeValue 1 5) solid_none))
  · refine Yields.bind (parseEveryIntervalSlot_printable _) ?_
    intro slots h
    cases slots with
    | some slots => exact Yields.pure (h slots rfl)
    | none =>
        dsimp only
        split
        · exact monthdays_printable _
        · exact weekdays_printable _

/-- A subject with a time of day behind it. -/
theorem subjectAndTime_printable {parseSubject : List Char → Except PyError (List Slot)}
    (h : ∀ subject, Yields AllPrintable (parseSubject subject)) (last : PyError)
    (segment : List Char) : Yields AllPrintable (subjectAndTime p parseSubject last segment) := by
  refine firstOf_yields ?_
  intro x mem
  rcases List.mem_cons.mp mem with rfl | cut
  · exact h segment
  · obtain ⟨index, -, rfl⟩ := List.mem_map.mp cut
    refine Yields.bind (h _) (fun subject hs => ?_)
    refine Yields.bind (parseAtSegment_printable _) (fun time ht => ?_)
    exact Yields.pure (allPrintable_append hs ht)

theorem parseOnObject_printable (segment : List Char) :
    Yields AllPrintable (parseOnObject p segment) := by
  unfold parseOnObject
  dsimp only
  split
  · exact monthdays_printable _
  · exact Yields.bind (parseNumberList_solid _)
      (fun minutes h => Yields.pure (everyHourSlot_printable (solid_many h)))
  · exact Yields.bind (parseNumberList_solid _)
      (fun seconds h => Yields.pure (allPrintable_one (printable_many h solid_none)))
  · split_ifs
    · exact Yields.pure (everyHourSlot_printable solid_zero)
    · exact Yields.pure (everyHourSlot_printable (SlotData.solid_one solid_star))
    · split
      · exact monthdays_printable _
      · exact weekdays_printable _

theorem parseNaturalSegment_printable (marker : Option String) (segment : List Char) :
    Yields AllPrintable (parseNaturalSegment p marker segment) := by
  have zone : Yields AllPrintable ((parseTimezoneSlot p segment).map ([·])) :=
    Yields.map (parseTimezoneSlot_printable segment) (fun slot h => allPrintable_one h)
  unfold parseNaturalSegment
  split
  · exact subjectAndTime_printable parseEverySubject_printable _ _
  · exact parseFromSegment_printable segment
  · exact parseAtSegment_printable segment
  · exact zone
  · refine Yields.bind (Yields.trivial _) (fun timezone _ => ?_)
    split
    · exact zone
    · exact subjectAndTime_printable parseOnObject_printable _ _
  · refine firstOf_yields ?_
    intro x mem
    simp only [List.mem_cons, List.not_mem_nil, or_false] at mem
    rcases mem with rfl | rfl
    · exact parseAtSegment_printable segment
    · exact parseFromSegment_printable segment

/-- All segments of a text, by induction on the fuel. -/
theorem parseSegments_printable (fuel : Nat) (remaining : List Char) :
    Yields AllPrintable (parseSegments p fuel remaining) := by
  have empty : AllPrintable [] := by
    intro slot mem
    cases mem
  induction fuel generalizing remaining with
  | zero => exact Yields.ok empty
  | succ fuel ih =>
      unfold parseSegments
      split
      · exact Yields.ok empty
      · dsimp only
        refine Yields.bind (P := AllPrintable) ?_ (fun slots h => ?_)
        · unfold segmentSlots
          split
          · exact Yields.ok empty
          · exact parseNaturalSegment_printable _ _
        · exact Yields.bind (ih _) (fun more h' => Yields.pure (allPrintable_append h h'))

/-- Whatever phrase is accepted prints to fields that read back. -/
theorem parseNaturalSlots_printable (schedule : List Char) :
    Yields AllPrintable (parseNaturalSlots p schedule) := by
  refine Yields.bind (parseSegments_printable _ _) (fun slots h => ?_)
  split
  · exact Yields.error
  · exact Yields.pure h

end Slots

/-! ## The time zone -/

section Timezone

variable {p : Platform}

/-- Expressions that end in the same words and have as many. -/
def SameEnd (crons : List (List Char)) : Prop :=
  ∃ (count : Nat) (last : List Char), ∀ cron ∈ crons,
    (words cron).length = count ∧ (words cron).getLastD [] = last

/-- A time that is put to the slots has a clock. -/
theorem withTime_clock {grouped : Slots} {hms : List Slot} (h : ClockSlots hms) :
    ClockSlots (withTime grouped hms) := by
  unfold withTime
  split
  · intro hm mem
    rw [List.mem_singleton.mp mem]
    exact ⟨rfl, printable_one (solid_int 0) solid_zero⟩
  · exact h

/-- The first of the month, where nothing else says the day. -/
theorem withMonthday_printable {grouped : Slots} {hms : List Slot} (h : grouped.Printable) :
    (withMonthday grouped hms).Printable := by
  unfold withMonthday
  split_ifs
  · exact h
  · intro entry mem
    rcases List.mem_append.mp mem with old | new
    · exact h entry old
    · rw [List.mem_singleton.mp new]
      exact ⟨rfl, printable_one (solid_int 1) solid_none⟩
  · exact h

/-- The fields for one phrase end the same way. -/
theorem naturalSlotsToCrons_sameEnd {slots : List Slot} (h : AllPrintable slots) :
    Yields SameEnd (naturalSlotsToCrons slots) := by
  refine Yields.bind (P := Slots.Printable) ?_ ?_
  · refine Yields.foldlM (fun entry mem => by cases mem) ?_
    intro grouped printable slot mem
    exact addSlot_printable printable (h slot (List.mem_of_mem_filter mem))
  · intro grouped printable
    refine Yields.bind (determineNaturalHms_printed (withTime_clock ?_)) ?_
    · intro hm mem
      obtain ⟨inside, isHm⟩ := List.mem_filter.mp mem
      exact ⟨beq_iff_eq.mp isHm, h hm inside⟩
    · intro determined printed
      obtain ⟨before, after, some, shape⟩ :=
        words_naturalCronFromHm (withMonthday_printable printable)
      refine Yields.pure ⟨before.length + 2 + after.length, after.getLastD [], ?_⟩
      intro cron mem
      obtain ⟨hm, inside, rfl⟩ := List.mem_map.mp mem
      obtain ⟨minute, hour, eq⟩ := shape hm (printed hm inside)
      rw [eq]
      obtain ⟨first, rest, rfl⟩ := List.exists_cons_of_ne_nil some
      refine ⟨?_, ?_⟩
      · simp only [List.length_append, List.length_cons]
        omega
      · simp [List.getLastD_eq_getLast?, List.getLast?_cons]

/-- The time zone of an expression, by the number of its words and the last of them. -/
theorem timezone_of_split {cron : List Char} {fields : List (List Char)} {timezone : Option TzInfo}
    (h : splitCronSchedule p cron = .ok (fields, timezone)) :
    (words cron).length = 5 ∧ timezone = none ∨
      (words cron).length = 6 ∧ parseTimezone p ((words cron).getLastD []) false = .ok timezone ∨
      (words cron).length = 7 ∧ parseTimezone p ((words cron).getLastD []) true = .ok timezone := by
  unfold splitCronSchedule at h
  dsimp only at h
  split_ifs at h with five six seven
  · cases h
    exact Or.inl ⟨five, rfl⟩
  · obtain ⟨zone, parsed, h⟩ := bind_eq_ok h
    refine Or.inr (Or.inl ⟨six, ?_⟩)
    rw [parsed]
    cases zone with
    | none =>
        cases h
        rfl
    | some tz =>
        cases h
        rfl
  · obtain ⟨zone, parsed, h⟩ := bind_eq_ok h
    cases h
    exact Or.inr (Or.inr ⟨seven, parsed⟩)

/-- Two texts of equally many words with the same last word agree on the zone. -/
theorem timezone_of_sameEnd {a b : List Char} (count : (words a).length = (words b).length)
    (last : (words a).getLastD [] = (words b).getLastD []) {fa fb : List (List Char)}
    {za zb : Option TzInfo} (ha : splitCronSchedule p a = .ok (fa, za))
    (hb : splitCronSchedule p b = .ok (fb, zb)) : za = zb := by
  have := timezone_of_split ha
  have := timezone_of_split hb
  grind

/-- The schedules of one text share their time zone. -/
theorem parseSchedule_shared (schedule : String) :
    Yields (fun parsed => (∀ s ∈ parsed, s.ClockFields) ∧
      ∃ timezone, ∀ s ∈ parsed, s.timezone = timezone) (parseSchedule p schedule) := by
  have single : Yields (fun parsed => (∀ s ∈ parsed, s.ClockFields) ∧
      ∃ timezone, ∀ s ∈ parsed, s.timezone = timezone) (parseCronText p (strip schedule.toList)) := by
    refine Yields.bind (Yields.trivial _) (fun expanded _ => ?_)
    refine Yields.bind (parseCronSchedule_clock expanded) ?_
    rintro s ⟨clock, -⟩
    refine Yields.pure ⟨?_, s.timezone, ?_⟩
    · intro s' mem
      rw [List.mem_singleton.mp mem]
      exact clock
    · intro s' mem
      rw [List.mem_singleton.mp mem]
  unfold parseSchedule
  dsimp only
  split
  · exact single
  · split
    · rename_i parsed accepted
      exact Yields.ok (single parsed accepted)
    · split
      · refine Yields.bind (P := SameEnd) ?_ ?_
        · unfold expandNaturalSchedule
          dsimp only
          split_ifs
          · exact Yields.error
          · exact Yields.error
          · exact Yields.bind (parseNaturalSlots_printable _)
              (fun slots h => naturalSlotsToCrons_sameEnd h)
        · rintro crons ⟨count, last, ends⟩ parsed eq
          have each := Yields.mapM (R := fun s => s.ClockFields ∧ ∃ cron ∈ crons, ∃ fields,
            splitCronSchedule p cron = .ok (fields, s.timezone))
            (fun cron mem => (parseCronSchedule_clock (p := p) cron).mono
              (fun s h => ⟨h.1, cron, mem, h.2⟩)) parsed eq
          refine ⟨fun s mem => (each s mem).1, ?_⟩
          cases parsed with
          | nil => exact ⟨none, fun s mem => by cases mem⟩
          | cons first rest =>
              obtain ⟨-, cron, inside, fields, split⟩ := each first List.mem_cons_self
              refine ⟨first.timezone, ?_⟩
              intro s mem
              obtain ⟨-, cron', inside', fields', split'⟩ := each s mem
              obtain ⟨c, l⟩ := ends cron inside
              obtain ⟨c', l'⟩ := ends cron' inside'
              exact timezone_of_sameEnd (c'.trans c.symm) (l'.trans l.symm) split' split
      · exact Yields.error

end Timezone

end DjQueue.Crontab
