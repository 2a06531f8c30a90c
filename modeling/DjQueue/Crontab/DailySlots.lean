import DjQueue.Crontab.TimeLists

/-!
# The slots of a daily schedule

`every day at 9:30, 12am and 5 PM` is cut into its two segments; the first gives the slot of every
day, the second an ungraded slot for each time of the list.
-/

namespace DjQueue.Crontab

open Regex

namespace TimeList

variable (l : TimeList)

/-- The schedule that names the times of every day. -/
def everyDayAt : List Char := "every day at ".toList ++ l.text

/-- The phrase is thirteen characters longer than its times. -/
theorem length_everyDayAt : l.everyDayAt.length = 13 + l.text.length := List.length_append

theorem text_eq_cons : ∃ c rest, l.text = c :: rest ∧ c.isDigit = true := by
  rcases l.first.clock_eq_cons with ⟨c, rest, clock, digit⟩
  refine ⟨c, rest ++ l.first.meridiem.elim [] (fun m => m.gap ++ m.letters) ++
    joinedText l.rest, ?_, digit⟩
  rw [text, WrittenTime.text, WrittenTime.written, clock]
  rfl

/-- The times end with a digit, a colon or an `m` -/
theorem getLast?_text {c : Char} (last : c ∈ l.text.getLast?) : c ∈ "0123456789:mM".toList := by
  have ends : ∀ (rest : List (Joiner × WrittenTime)) (t : WrittenTime) (c : Char),
      c ∈ (t.text ++ joinedText rest).getLast? → c ∈ "0123456789:mM".toList := by
    intro rest
    induction rest with
    | nil =>
        intro t c last
        rw [joinedText, List.flatMap_nil, List.append_nil] at last
        exact t.getLast?_written Meridiem.named last
    | cons x rest ih =>
        intro t c last
        apply ih x.2 c
        rwa [joinedText_cons, ← List.append_assoc,
          List.getLast?_append_of_ne_nil _ (spaced_joinedText x.2 rest).ne_nil] at last
  exact ends l.rest l.first c last

theorem isAscii_of_mem_text {c : Char} (mem : c ∈ l.text) : isAscii c = true := by
  have each : ∀ c ∈ listCharacters, isAscii c = true := forall_mem_of_all (by decide)
  exact each c (l.mem_text mem)

end TimeList

/-! ## The times -/

section Times

variable (p : Platform) (l : TimeList)

/-- Every introduced phrase has a word with this mark. -/
theorem marked_introducedRx {singulars others : List String} (some : singulars ++ others ≠ [])
    {mark : Char → Bool} (named : ∀ w ∈ singulars ++ others, w.toList.any mark = true) :
    (introducedRx singulars others).Marked mark (fun _ => true) := by
  refine ⟨fun cs reads => ?_, fun _ _ _ _ => rfl⟩
  rcases reads.of_seq with ⟨front, rest, rfl, chosen, -⟩
  have nonempty : singulars.map (fun w => Rx.seq (lit w) (opt (lit "s"))) ++
      others.map lit ≠ [] := by
    cases singulars with
    | nil =>
        cases others with
        | nil => exact absurd rfl some
        | cons w others => exact List.cons_ne_nil _ _
    | cons w singulars => exact List.cons_ne_nil _ _
  rcases chosen.of_alts nonempty with ⟨option, mem, read⟩
  rcases List.mem_append.mp mem with singular | other
  · rcases List.mem_map.mp singular with ⟨w, listed, rfl⟩
    rcases read.of_seq with ⟨letters, plural, rfl, word, -⟩
    rcases List.any_eq_true.mp (named w (List.mem_append_left others listed)) with
      ⟨c, inside, holds⟩
    rw [word.of_lit]
    exact ⟨c, List.mem_append_left rest (List.mem_append_left plural inside), holds⟩
  · rcases List.mem_map.mp other with ⟨w, listed, rfl⟩
    rcases List.any_eq_true.mp (named w (List.mem_append_right singulars listed)) with
      ⟨c, inside, holds⟩
    rw [read.of_lit]
    exact ⟨c, List.mem_append_left rest inside, holds⟩

/-- Beyond ASCII nothing changes with the case. -/
theorem lowered_timeList : lowered p l.text = l.text.map Char.toLower :=
  lowered_of_ascii p l.spaced_text fun _ mem => l.isAscii_of_mem_text mem

/-- The slots of the times, one for each. -/
def timeSlots : List Slot := l.times.map (fun t => timeSlot t.reading)

/-- A list of times is neither the hour, the minute nor introduced by a word. -/
theorem atSlots_text (short : l.text.length ≤ intMaxStrDigits) :
    atSlots p l.text = .ok (timeSlots l) := by
  have plain : ∀ c ∈ l.text.map Char.toLower, c ∈ "0123456789: apm,nd".toList := by
    intro c mem
    rcases List.mem_map.mp mem with ⟨d, inside, rfl⟩
    have each : ∀ c ∈ listCharacters, c.toLower ∈ "0123456789: apm,nd".toList :=
      forall_mem_of_all (by decide)
    exact each d (l.mem_text inside)
  have other : ∀ w : List Char, w.any (fun c => !"0123456789: apm,nd".toList.contains c) = true →
      l.text.map Char.toLower ≠ w := by
    rintro w foreign rfl
    rcases List.any_eq_true.mp foreign with ⟨c, mem, absent⟩
    rw [List.contains_iff_mem.mpr (plain c mem)] at absent
    cases absent
  have unintroduced {singulars others : List String} (some : singulars ++ others ≠ [])
      (named : ∀ w ∈ singulars ++ others, w.toList.any ['i', 's', 'h'].contains = true) :
      fullmatch (introducedRx singulars others) (l.text.map Char.toLower) = none := by
    apply fullmatch_eq_none
    apply (marked_introducedRx some named).not_reads
    intro c mem
    have each : ∀ c ∈ "0123456789: apm,nd".toList, ['i', 's', 'h'].contains c = false :=
      forall_mem_of_all (by decide)
    exact each c (plain c mem)
  unfold atSlots
  rw [lowered_timeList]
  dsimp only
  rw [if_neg, if_neg, unintroduced (by decide) (by decide), unintroduced (by decide) (by decide),
    unintroduced (by decide) (by decide)]
  · dsimp only
    rw [parseNaturalTimes_text p l short]
    change Except.ok ((l.times.map WrittenTime.reading).map timeSlot) = _
    rw [List.map_map]
    rfl
  · rintro (theMinute | minute)
    · exact other _ (by decide) theMinute
    · exact other _ (by decide) minute
  · rintro (theHour | hour)
    · exact other _ (by decide) theHour
    · exact other _ (by decide) hour

theorem marked_offsetRx : offsetRx.Marked isSign (fun _ => true) := by
  refine ⟨fun cs reads => ?_, fun _ _ _ _ => rfl⟩
  rcases reads.of_seq with ⟨sign, rest, rfl, first, -⟩
  cases first with
  | group read =>
      cases read with
      | char holds =>
          refine ⟨_, List.mem_append_left rest List.mem_cons_self, ?_⟩
          rwa [isSign, Bool.or_comm]

/-- No word of the list is a time zone, so that the segment is the list. -/
theorem splitAtTimezone_text (zoneless : ∀ w ∈ words l.text, p.zoneInfo w = .notFound) :
    splitAtTimezone p l.text = .ok (l.text, none) := by
  unfold splitAtTimezone
  rw [l.spaced_text.strip]
  dsimp only
  split
  · rfl
  · rename_i enough
    have listed : (words l.text).getLastD [] ∈ words l.text := by
      cases eq : words l.text with
      | nil =>
          rw [eq] at enough
          simp at enough
      | cons w ws =>
          rw [List.getLastD_eq_getLast?, List.getLast?_eq_some_getLast (List.cons_ne_nil w ws)]
          exact List.getLast_mem _
    have inside : ∀ c ∈ (words l.text).getLastD [], c ∈ listCharacters := by
      intro c mem
      have piece := (List.mem_filter.mp listed).1
      exact l.mem_text (Pieces.mem_of_mem piece mem)
    have notZ : (words l.text).getLastD [] ≠ ['Z'] := by
      intro z
      have mem := inside 'Z' (by rw [z]; exact List.mem_cons_self)
      revert mem
      decide
    have unsigned : fullmatch offsetRx ((words l.text).getLastD []) = none := by
      apply fullmatch_eq_none
      apply marked_offsetRx.not_reads
      intro c mem
      have each : ∀ c ∈ listCharacters, isSign c = false := forall_mem_of_all (by decide)
      exact each c (inside c mem)
    have unzoned : parseTimezone p ((words l.text).getLastD []) false = .ok none := by
      unfold parseTimezone
      rw [if_neg notZ, unsigned, zoneless _ listed]
      rfl
    rw [unzoned]
    rfl

/-- The phrase behind `at` is read as the times. -/
theorem parseAtSegment_text (short : l.text.length ≤ intMaxStrDigits)
    (zoneless : ∀ w ∈ words l.text, p.zoneInfo w = .notFound) :
    parseAtSegment p l.text = .ok (timeSlots l) := by
  rw [parseAtSegment, splitAtTimezone_text p l zoneless]
  dsimp only [bind, Except.bind]
  rw [atSlots_text p l short]
  rfl

end Times

/-! ## The segments -/

section Segments

variable (p : Platform) (l : TimeList)

/-- `{ key := .monthday }`, any day unless a day is named. -/
def everyDaySlot : Slot := { key := .monthday, data0 := .one star, weak := .always }

theorem parseEverySegment_day : parseEverySegment p "day".toList = .ok [everyDaySlot] := rfl

/-- A boundary is read from a blank on, in front of a word that begins a segment. -/
theorem of_run_boundary {pos found : Pos}
    (run : (naturalSegmentBoundaryRx p).run some pos = some found) :
    ∃ blanks ahead, pos.rest = blanks ++ ahead ∧ (blanks ≠ [] ∧ ∀ c ∈ blanks, isSpace c = true) ∧
      ∃ w ∈ naturalSegmentPrefixes, ∃ cs more, ahead = cs ++ more ∧
        (word p.unicode.ignoreCase w).Reads cs := by
  rcases takes_of_run (a := spaces) run with ⟨blanks, reads, pos', split, goesOn⟩
  refine ⟨blanks, pos'.rest, split, reads.of_some1, ?_⟩
  rw [Rx.run] at goesOn
  split at goesOn
  · rename_i seen
    rcases Option.isSome_iff_exists.mp seen with ⟨found', run'⟩
    rcases takes_of_run run' with ⟨cs, marker, pos'', split', -⟩
    rcases marker.of_seq with ⟨letters, after, rfl, named, -⟩
    rcases named.of_alts (List.cons_ne_nil _ _) with ⟨option, mem, read⟩
    have listed : option ∈ naturalSegmentPrefixes.map (word p.unicode.ignoreCase) := mem
    rcases List.mem_map.mp listed with ⟨w, chosen, rfl⟩
    exact ⟨w, chosen, letters, after ++ pos''.rest, by rw [split', List.append_assoc], read⟩
  · cases goesOn

/-- There is no boundary in front of a character that is no blank. -/
theorem boundary_of_solid {left more : List Char} {c : Char} (solid : isSpace c = false) :
    (naturalSegmentBoundaryRx p).run some ⟨left, c :: more, []⟩ = none := by
  cases run : (naturalSegmentBoundaryRx p).run some ⟨left, c :: more, []⟩ with
  | none => rfl
  | some found =>
      rcases of_run_boundary p run with ⟨blanks, ahead, split, ⟨some, all⟩, -⟩
      cases blanks with
      | nil => exact absurd rfl some
      | cons d blanks =>
          have same : c = d := (List.cons.inj split).1
          rw [same, all d List.mem_cons_self] at solid
          cases solid

/-- No word of the list begins a segment: each of those has a letter the list has not. -/
theorem silent_boundary : Silent (naturalSegmentBoundaryRx p) l.text := by
  have unread : ∀ (left : List Char) (a b : List Char), l.text = a ++ b →
      (naturalSegmentBoundaryRx p).run some ⟨left, b, []⟩ = none := by
    intro left a b split
    cases run : (naturalSegmentBoundaryRx p).run some ⟨left, b, []⟩ with
    | none => rfl
    | some found =>
        rcases of_run_boundary p run with ⟨blanks, ahead, whole, -, w, marker, cs, more, rfl, read⟩
        have whole : b = blanks ++ (cs ++ more) := whole
        have foreign : ∀ w ∈ naturalSegmentPrefixes, w.toList.any (fun letter =>
            listCharacters.all (fun c => c.toLower != letter.toLower)) = true := by
          decide
        rcases List.any_eq_true.mp (foreign w marker) with ⟨letter, mem, absent⟩
        rcases (of_reads_word read).1 letter mem with ⟨c, inside, holds⟩
        have listed : c ∈ l.text := by
          rw [split, whole]
          exact List.mem_append_right a
            (List.mem_append_right blanks (List.mem_append_left more inside))
        rcases holds with beyond | same
        · rw [l.isAscii_of_mem_text listed] at beyond
          cases beyond
        · have other := List.all_eq_true.mp absent c (l.mem_text listed)
          rw [same, bne_self_eq_false] at other
          cases other
  refine ⟨?_, fun left => unread left l.text [] (List.append_nil _).symm⟩
  intro a c b split left
  rw [List.append_nil]
  exact unread left a (c :: b) split

/-- No separator stands in front of the times. -/
theorem stripNaturalSeparator_append {front : List Char}
    (first : front.head?.all (fun c => !(c == ' ' || c == ',' || c == '\t')) = true) :
    stripNaturalSeparator (front ++ l.text) = front ++ l.text := by
  apply stripBy_eq_self
  · cases front with
    | nil =>
        rcases l.text_eq_cons with ⟨d, rest, eq, digit⟩
        intro c mem
        rw [List.nil_append, eq] at mem
        cases mem
        have each : ∀ c ∈ "0123456789".toList, (c == ' ' || c == ',' || c == '\t') = false :=
          forall_mem_of_all (by decide)
        exact each d (mem_of_asciiDigit digit)
    | cons d front =>
        intro c mem
        cases mem
        simpa using first
  · intro c mem
    rw [List.getLast?_append_of_ne_nil _ l.spaced_text.ne_nil] at mem
    have each : ∀ c ∈ "0123456789:mM".toList, (c == ' ' || c == ',' || c == '\t') = false :=
      forall_mem_of_all (by decide)
    exact each c (l.getLast?_text mem)

theorem takeNaturalSegment_text : takeNaturalSegment p l.text = (l.text, []) := by
  have same : stripNaturalSeparator ([] ++ l.text) = [] ++ l.text :=
    stripNaturalSeparator_append l (by simp)
  rw [List.nil_append] at same
  unfold takeNaturalSegment
  rw [same]
  dsimp only
  rw [(silent_boundary p l).search]

/-- The segment `day` ends in front of `at` -/
theorem takeNaturalSegment_day : takeNaturalSegment p ("day at ".toList ++ l.text) =
    ("day".toList, "at ".toList ++ l.text) := by
  have quiet : NoMatchIn (naturalSegmentBoundaryRx p) "day".toList (" at ".toList ++ l.text) := by
    intro a c b split left
    apply boundary_of_solid
    have each : ∀ c ∈ "day".toList, isSpace c = false := forall_mem_of_all (by decide)
    exact each c (by rw [split]; exact List.mem_append_right a List.mem_cons_self)
  have cut : (naturalSegmentBoundaryRx p).run some
      ⟨"day".toList.reverse ++ [], " at ".toList ++ l.text, []⟩ =
      some ⟨" yad".toList, "at ".toList ++ l.text, []⟩ := rfl
  have found : searchFrom (naturalSegmentBoundaryRx p) []
      ("day".toList ++ (" at ".toList ++ l.text)) =
        some (" yad".toList.tail ++ [], ⟨" yad".toList, "at ".toList ++ l.text, []⟩) :=
    (searchFrom_append quiet).trans (searchFrom_of_run cut)
  have search : search (naturalSegmentBoundaryRx p) ("day at ".toList ++ l.text) =
      some ("day".toList, "at ".toList ++ l.text) := by
    change (searchFrom (naturalSegmentBoundaryRx p) []
      ("day".toList ++ (" at ".toList ++ l.text))).map
        (fun found => (found.1.reverse, found.2.rest)) = _
    rw [found]
    rfl
  unfold takeNaturalSegment
  rw [stripNaturalSeparator_append l (by decide)]
  dsimp only
  rw [search]
  rfl

/-- Text of ASCII is lowered letter by letter. -/
theorem lowerText_append {front : List Char} (ascii : ∀ c ∈ front, isAscii c = true) :
    p.unicode.lowerText (front ++ l.text) = front.map Char.toLower ++ l.text.map Char.toLower := by
  rw [lowerText_of_ascii, List.map_append]
  intro c mem
  rcases List.mem_append.mp mem with before | later
  · exact ascii c before
  · exact l.isAscii_of_mem_text later

/-- The first segment of the phrase is `every day` -/
theorem takeNaturalPrefixedSegment_everyDayAt : takeNaturalPrefixedSegment p l.everyDayAt =
    (some "every", "day".toList, "at ".toList ++ l.text) := by
  unfold takeNaturalPrefixedSegment TimeList.everyDayAt
  rw [stripNaturalSeparator_append l (by decide)]
  dsimp only
  rw [lowerText_append p l (forall_mem_of_all (by decide))]
  change (some "every", takeNaturalSegment p ("day at ".toList ++ l.text)) = _
  rw [takeNaturalSegment_day]

/-- The second segment is `at` with the times. -/
theorem takeNaturalPrefixedSegment_at : takeNaturalPrefixedSegment p ("at ".toList ++ l.text) =
    (some "at", l.text, []) := by
  unfold takeNaturalPrefixedSegment
  rw [stripNaturalSeparator_append l (by decide)]
  dsimp only
  rw [lowerText_append p l (forall_mem_of_all (by decide))]
  change (some "at", takeNaturalSegment p l.text) = _
  rw [takeNaturalSegment_text]

/-- The slot of every day, and one for each time. -/
theorem parseNaturalSlots_everyDayAt (short : l.text.length ≤ intMaxStrDigits)
    (zoneless : ∀ w ∈ words l.text, p.zoneInfo w = .notFound) :
    parseNaturalSlots p l.everyDayAt = .ok (everyDaySlot :: timeSlots l) := by
  have some : l.text.isEmpty = false := List.isEmpty_eq_false_iff.mpr l.spaced_text.ne_nil
  have every : segmentSlots p (.some "every") "day".toList = .ok [everyDaySlot] :=
    parseEverySegment_day p
  have times : segmentSlots p (.some "at") l.text = .ok (timeSlots l) := by
    rw [segmentSlots, some]
    exact parseAtSegment_text p l short zoneless
  have second (fuel : Nat) :
      parseSegments p (fuel + 2) ("at ".toList ++ l.text) = .ok (timeSlots l) := by
    rw [parseSegments, takeNaturalPrefixedSegment_at]
    change (do
      let slots ← segmentSlots p (.some "at") l.text
      let more ← parseSegments p (fuel + 1) []
      pure (slots ++ more)) = _
    rw [times]
    change Except.ok (timeSlots l ++ []) = _
    rw [List.append_nil]
  have first (fuel : Nat) :
      parseSegments p (fuel + 3) l.everyDayAt = .ok (everyDaySlot :: timeSlots l) := by
    rw [parseSegments, takeNaturalPrefixedSegment_everyDayAt]
    change (do
      let slots ← segmentSlots p (.some "every") "day".toList
      let more ← parseSegments p (fuel + 2) ("at ".toList ++ l.text)
      pure (slots ++ more)) = _
    rw [every, second]
    rfl
  rw [parseNaturalSlots]
  have length : l.everyDayAt.length + 1 = (l.text.length + 11) + 3 := by
    rw [l.length_everyDayAt]
    omega
  rw [length, first]
  rfl

/-- The phrase is spaced as it is read. -/
theorem spaced_everyDayAt : Spaced l.everyDayAt := by
  have front : Spaced "every day at".toList :=
    .cons (w := "every".toList) (solid_of_all rfl rfl)
      (.cons (w := "day".toList) (solid_of_all rfl rfl)
        (.word (w := "at".toList) (solid_of_all rfl rfl)))
  exact front.blank l.spaced_text

/-- The whole phrase expands to the crons of its slots. -/
theorem expandNaturalSchedule_everyDayAt (short : l.everyDayAt.length ≤ 256)
    (zoneless : ∀ w ∈ words l.text, p.zoneInfo w = .notFound) :
    expandNaturalSchedule p l.everyDayAt =
      naturalSlotsToCrons (everyDaySlot :: timeSlots l) := by
  have within : l.text.length ≤ intMaxStrDigits := by
    rw [l.length_everyDayAt] at short
    exact ((Nat.le_add_left _ _).trans short).trans (by decide)
  unfold expandNaturalSchedule
  rw [(spaced_everyDayAt l).strip, (spaced_everyDayAt l).sub_spaces]
  dsimp only
  rw [if_neg, if_neg (by omega), parseNaturalSlots_everyDayAt p l within zoneless]
  · rfl
  · exact Bool.eq_false_iff.mp (List.isEmpty_eq_false_iff.mpr (spaced_everyDayAt l).ne_nil)

end Segments

end DjQueue.Crontab
