import DjQueue.Crontab.DailySlots

/-!
# Natural time lists mean their union

The times of one hour share a cron expression with that hour and their minutes; read back, the
expressions of all hours run at the listed times and at no others.
-/

namespace DjQueue.Crontab

open Regex

/-! ## Printed numbers -/

/-- Digits of ASCII are the digits of the number. -/
theorem decimalNumber_of_asciiDigits {cs : List Char} (digits : ∀ c ∈ cs, c.isDigit = true) :
    decimalNumber cs = (Nat.ofDigitChars 10 cs 0 : Nat) := by
  have each : ∀ c ∈ "0123456789".toList, decimalDigit c = some (c.toNat - '0'.toNat) :=
    forall_mem_of_all (by decide)
  have folded : ∀ (cs : List Char) (n : Nat), (∀ c ∈ cs, c.isDigit = true) →
      cs.foldl (fun (m : Int) c => 10 * m + ((decimalDigit c).getD 0 : Nat)) n =
        (Nat.ofDigitChars 10 cs n : Nat) := by
    intro cs
    induction cs with
    | nil => exact fun n _ => by rw [Nat.ofDigitChars_nil]; rfl
    | cons c cs ih =>
        intro n digits
        have digit := each c (mem_of_asciiDigit (digits c List.mem_cons_self))
        have next := ih (10 * n + (c.toNat - '0'.toNat)) fun d mem =>
          digits d (List.mem_cons_of_mem c mem)
        rw [Nat.ofDigitChars_cons, ← next, List.foldl_cons, digit, Option.getD_some]
        push_cast
        rfl
  exact folded cs 0 digits

section Printed

variable {n : Int}

/-- The digits of a number that is not negative. -/
theorem digits_of_nonneg (nonneg : 0 ≤ n) : digits n = Nat.toDigits 10 n.toNat := by
  rw [digits, Int.toString_eq_repr, Int.repr_eq_if, if_pos nonneg, Nat.toList_repr]

theorem asciiDigits_of_nonneg (nonneg : 0 ≤ n) : ∀ c ∈ digits n, c.isDigit = true := by
  rw [digits_of_nonneg nonneg]
  exact fun c mem => Nat.isDigit_of_mem_toDigits (by decide) (by decide) mem

/-- A printed number of at most two digits is read back. -/
theorem read_digits (nonneg : 0 ≤ n) (small : n < 100) :
    isInt (digits n) = true ∧ toInt (digits n) = .ok n := by
  have ascii := asciiDigits_of_nonneg nonneg
  have decimal : ∀ c ∈ digits n, isDigit c = true :=
    fun c mem => isDigit_of_asciiDigit (ascii c mem)
  have short : (digits n).length ≤ intMaxStrDigits := by
    rw [digits_of_nonneg nonneg]
    have two := (Nat.length_toDigits_le_iff (b := 10) (n := n.toNat) (k := 2) (by decide)
      (by decide)).mpr (by omega)
    exact two.trans (by decide)
  refine ⟨isInt_of_digits (solid_digits n).1 decimal, ?_⟩
  rw [toInt_of_digits decimal short, decimalNumber_of_asciiDigits ascii, digits_of_nonneg nonneg,
    Nat.ofDigitChars_ten_toDigits]
  exact congrArg Except.ok (by omega)

end Printed

/-! ## Fields that list numbers -/

section Fields

variable {p : Platform} {rule : FieldRule} {n : Int}

/-- Each listed number is read as itself. -/
theorem expandSimpleItem_digits (unnamed : rule.names = []) (low : rule.minimum = 0)
    (several : rule.maximum ≠ 0) (high : rule.maximum < 100) (inside : 0 ≤ n ∧ n ≤ rule.maximum) :
    expandSimpleItem p rule (digits n) = .ok ([rule.normalize n], false) := by
  have ascii := asciiDigits_of_nonneg inside.1
  have absent : ∀ c, c.isDigit = false → c ∉ digits n := by
    intro c other mem
    rw [ascii c mem] at other
    cases other
  have plain : ∀ c, c.isDigit = false → (digits n).contains c = false := by
    intro c other
    rw [Bool.eq_false_iff, ne_eq, List.contains_iff_mem]
    exact absent c other
  have split : splitStep (digits n) = .ok (digits n, 1, false) := by
    unfold splitStep
    rw [if_neg, plain '/' rfl]
    · rfl
    · exact fun first => absent '/' rfl (List.mem_of_mem_head? first)
  have bound : parseSimpleBound p rule (digits n) = .ok n := by
    have read := read_digits inside.1 (by omega)
    rw [parseSimpleBound, boundNumber, unnamed, List.lookup_nil, read.1, if_pos rfl, read.2]
    exact if_neg (by omega)
  have range : itemRange p rule (digits n) false = .ok (n, n,
      rule.fullRangeIsWildcard && n == rule.minimum && n == rule.maximum) := by
    rw [itemRange, if_neg, parseSimpleRange, plain '-' rfl, Bool.not_false, if_pos rfl, bound]
    · rfl
    · intro star
      exact absent '*' rfl (by rw [star]; exact List.mem_cons_self)
  have one : cyclicValues n n rule.minimum rule.maximum 1 rule.normalize = [rule.normalize n] := by
    have single : IntSet.range n n = [n] := by
      have count : (n + 1 - n).toNat = 1 := by omega
      rw [IntSet.range, count]
      exact congrArg (fun m => [m]) (Int.add_zero n)
    rw [cyclicValues, if_pos le_rfl, single]
    rfl
  have partly : (rule.fullRangeIsWildcard && n == rule.minimum && n == rule.maximum) = false := by
    rw [Bool.and_assoc, Bool.and_eq_false_iff, Bool.and_eq_false_iff, beq_eq_false_iff_ne,
      beq_eq_false_iff_ne]
    apply Or.inr
    by_cases zero : n = rule.minimum
    · exact .inr (by omega)
    · exact .inl zero
  rw [expandSimpleItem, split]
  dsimp only [bind, Except.bind]
  rw [range]
  dsimp only
  rw [one, partly, Bool.and_false, Bool.false_and]
  rfl

/-- Numbers with commas between are read one by one. -/
theorem fieldItems_digits {ns : List Int} (some : ns ≠ []) (nonneg : ∀ n ∈ ns, 0 ≤ n) :
    fieldItems ([','].intercalate (ns.map digits)) = .ok (ns.map digits) := by
  have pieces : ([','].intercalate (ns.map digits)).splitOnP (· == ',') = ns.map digits := by
    apply List.splitOn_intercalate
    · intro part mem comma
      rcases List.mem_map.mp mem with ⟨n, inside, rfl⟩
      have digit := asciiDigits_of_nonneg (nonneg n inside) ',' comma
      cases digit
    · exact fun empty => some (List.map_eq_nil_iff.mp empty)
  have stripped : (ns.map digits).map strip = ns.map digits := by
    rw [List.map_map]
    exact List.map_congr_left fun n _ => strip_eq_self (solid_digits n).2
  have kept : (ns.map digits).filter (fun item => !item.isEmpty) = ns.map digits := by
    apply List.filter_eq_self.mpr
    intro part mem
    rcases List.mem_map.mp mem with ⟨n, -, rfl⟩
    rw [List.isEmpty_eq_false_iff.mpr (solid_digits n).1]
    rfl
  rw [fieldItems, pieces, stripped, kept]
  exact if_neg (by simpa using some)

/-- A list of numbers is read as the set of them. -/
theorem parseSimpleField_digits (unnamed : rule.names = []) (low : rule.minimum = 0)
    (several : rule.maximum ≠ 0) (high : rule.maximum < 100) {ns : List Int} (some : ns ≠ [])
    (inside : ∀ n ∈ ns, 0 ≤ n ∧ n ≤ rule.maximum) :
    parseSimpleField p rule ([','].intercalate (ns.map digits)) =
      .ok ⟨IntSet.ofList (ns.map rule.normalize), false⟩ := by
  have expanded : (ns.map digits).mapM (expandSimpleItem p rule) =
      .ok (ns.map (fun n => ([rule.normalize n], false))) := by
    clear some
    induction ns with
    | nil => rfl
    | cons n ns ih =>
        rw [List.map_cons, List.mapM_cons,
          expandSimpleItem_digits unnamed low several high (inside n List.mem_cons_self),
          ih fun m mem => inside m (List.mem_cons_of_mem n mem)]
        rfl
  have wild : (ns.map (fun n => ([rule.normalize n], false))).any (fun item => item.2) = false := by
    rw [List.any_map, List.any_eq_false]
    exact fun n _ => Bool.false_ne_true
  have values : (ns.map (fun n => ([rule.normalize n], false))).flatMap (fun item => item.1) =
      ns.map rule.normalize := by
    rw [List.flatMap_map, List.map_eq_flatMap]
  rw [parseSimpleField, fieldItems_digits some fun n mem => (inside n mem).1]
  dsimp only [bind, Except.bind]
  rw [expanded]
  dsimp only
  unfold fieldOf
  rw [wild]
  dsimp only
  rw [if_neg Bool.false_ne_true, values]
  exact if_neg (by simpa using some)

end Fields

/-! ## Grouping by the hour -/

/-- The groups hold the times: one hour each, with minutes it is listed with. -/
structure Gathers (groups : List (List SlotValue × List SlotValue)) (times : List (Int × Int)) :
    Prop where
  sound : ∀ group ∈ groups, ∃ hour minutes, group = ([.int hour], List.map .int minutes) ∧
    minutes ≠ [] ∧ ∀ minute ∈ minutes, (hour, minute) ∈ times
  complete : ∀ hour minute, (hour, minute) ∈ times →
    ∃ group ∈ groups, group.1 = [.int hour] ∧ .int minute ∈ group.2

section Grouping

variable {groups : List (List SlotValue × List SlotValue)} {times : List (Int × Int)}

theorem Gathers.nil : Gathers [] [] :=
  ⟨fun _ mem => absurd mem List.not_mem_nil, fun _ _ mem => absurd mem List.not_mem_nil⟩

/-- A minute joins the group of its hour, or opens one. -/
theorem Gathers.addMinute (gathers : Gathers groups times) (hour minute : Int) :
    Gathers (addMinute groups [.int hour] (.int minute)) (times ++ [(hour, minute)]) := by
  have earlier {h m : Int} (mem : (h, m) ∈ times) : (h, m) ∈ times ++ [(hour, minute)] :=
    List.mem_append_left _ mem
  have last : (hour, minute) ∈ times ++ [(hour, minute)] :=
    List.mem_append_right _ List.mem_cons_self
  unfold Crontab.addMinute
  split
  · rename_i known
    refine ⟨?_, ?_⟩
    · intro group mem
      rcases List.mem_map.mp mem with ⟨old, inside, rfl⟩
      rcases gathers.sound old inside with ⟨h, ms, rfl, some, listed⟩
      split
      · rename_i same
        cases same
        refine ⟨hour, ms ++ [minute], by rw [List.map_append]; rfl, by simp, ?_⟩
        intro m inside
        rcases List.mem_append.mp inside with front | new
        · exact earlier (listed m front)
        · rw [List.mem_singleton.mp new]
          exact last
      · exact ⟨h, ms, rfl, some, fun m inside => earlier (listed m inside)⟩
    · intro h m mem
      rcases List.mem_append.mp mem with front | new
      · rcases gathers.complete h m front with ⟨group, inside, hours, minutes⟩
        refine ⟨_, List.mem_map_of_mem inside, ?_⟩
        split
        · rename_i same
          exact ⟨same.symm.trans hours, List.mem_append_left _ minutes⟩
        · exact ⟨hours, minutes⟩
      · cases List.mem_singleton.mp new
        rcases List.any_eq_true.mp known with ⟨group, inside, same⟩
        refine ⟨_, List.mem_map_of_mem inside, ?_⟩
        rw [if_pos (eq_of_beq same)]
        exact ⟨rfl, List.mem_append_right _ List.mem_cons_self⟩
  · refine ⟨?_, ?_⟩
    · intro group mem
      rcases List.mem_append.mp mem with old | new
      · rcases gathers.sound group old with ⟨h, ms, eq, some, listed⟩
        exact ⟨h, ms, eq, some, fun m inside => earlier (listed m inside)⟩
      · refine ⟨hour, [minute], List.mem_singleton.mp new, List.cons_ne_nil _ _, ?_⟩
        intro m inside
        rw [List.mem_singleton.mp inside]
        exact last
    · intro h m mem
      rcases List.mem_append.mp mem with front | new
      · rcases gathers.complete h m front with ⟨group, inside, both⟩
        exact ⟨group, List.mem_append_left _ inside, both⟩
      · cases List.mem_singleton.mp new
        exact ⟨_, List.mem_append_right _ List.mem_cons_self, rfl, List.mem_cons_self⟩

theorem sortedValues_singleton (v : SlotValue) : sortedValues [v] = [v] := by
  simp [sortedValues]

/-- The groups hold the times and no others. -/
theorem groupByHours_gathers (times : List (Int × Int)) :
    Gathers (groupByHours (times.map timeSlot)) times := by
  have folded : ∀ (later done : List (Int × Int)) groups, Gathers groups done →
      Gathers ((later.map timeSlot).foldl (fun groups hm =>
        hm.data1.values.foldl (fun groups minute =>
          addMinute groups (sortedValues hm.data0.values) minute) groups) groups)
        (done ++ later) := by
    intro later
    induction later with
    | nil =>
        intro done groups gathers
        rw [List.append_nil]
        exact gathers
    | cons time later ih =>
        intro done groups gathers
        have next := ih (done ++ [time]) _ (gathers.addMinute time.1 time.2)
        rw [List.append_assoc] at next
        rw [List.map_cons, List.foldl_cons]
        have one : sortedValues (timeSlot time).data0.values = [.int time.1] :=
          sortedValues_singleton _
        rw [one]
        exact next
  exact folded times [] [] Gathers.nil

/-- No slot is graded, so that none is merged. -/
theorem mergeGraded_ungraded {hms : List Slot} (ungraded : ∀ hm ∈ hms,
    (hm.weak.truthy || hm.strong.truthy) = false) (fuel : Nat) :
    mergeGraded fuel hms = .ok hms := by
  cases fuel with
  | zero => rfl
  | succ fuel =>
      unfold mergeGraded
      split
      · rfl
      · rw [List.findIdx?_eq_none_iff.mpr ungraded]

end Grouping

/-! ## The expressions -/

/-- Numbers that are sorted stay those numbers. -/
theorem sortedValues_ints (ms : List Int) : ∃ ns : List Int,
    sortedValues (ms.map .int) = ns.map .int ∧ ∀ n, n ∈ ns ↔ n ∈ ms := by
  have lifted : ∀ vs : List SlotValue, (∀ v ∈ vs, ∃ n, v = .int n) →
      ∃ ns : List Int, vs = ns.map .int := by
    intro vs ints
    induction vs with
    | nil => exact ⟨[], rfl⟩
    | cons v vs ih =>
        rcases ints v List.mem_cons_self with ⟨n, rfl⟩
        rcases ih fun v mem => ints v (List.mem_cons_of_mem _ mem) with ⟨ns, rfl⟩
        exact ⟨n :: ns, rfl⟩
  have ints : ∀ v ∈ sortedValues (ms.map .int), ∃ n, v = .int n := by
    intro v mem
    rcases List.mem_map.mp (mem_sortedValues.mp mem) with ⟨n, -, rfl⟩
    exact ⟨n, rfl⟩
  rcases lifted _ ints with ⟨ns, eq⟩
  have injective : Function.Injective SlotValue.int := fun m n same => SlotValue.int.inj same
  refine ⟨ns, eq, fun n => ?_⟩
  rw [← List.mem_map_of_injective injective, ← eq, mem_sortedValues,
    List.mem_map_of_injective injective]

/-- The minutes of a group print as numbers with commas between. -/
theorem naturalFieldText_ints (ms : List Int) : ∃ ns : List Int,
    naturalFieldText (ms.map .int) = [','].intercalate (ns.map digits) ∧ ∀ n, n ∈ ns ↔ n ∈ ms := by
  rcases sortedValues_ints ms with ⟨ns, eq, same⟩
  refine ⟨ns, ?_, same⟩
  rw [naturalFieldText, eq, List.map_map]
  rfl

/-- The slot of one hour and its minutes. -/
def hourSlot (hour : Int) (minutes : List Int) : Slot :=
  ⟨.hm, .many [.int hour], .many (sortedValues (minutes.map .int)), .none, .none⟩

section Expressions

variable (p : Platform)

/-- What the expression of an hour is parsed as. -/
def hourSchedule (hour : Int) (minutes : List Int) : Schedule where
  seconds := ⟨IntSet.ofList [0], false⟩
  minutes := ⟨IntSet.ofList minutes, false⟩
  hours := ⟨IntSet.ofList [normalizeHour hour], false⟩
  dayOfMonth := ⟨IntSet.ofList (IntSet.range 1 31), true⟩
  months := ⟨IntSet.ofList (IntSet.range 1 12), true⟩
  dayOfWeek := ⟨[], true⟩
  dayAnd := false
  timezone := none

theorem ofList_congr {k l : List Int} (same : ∀ n, n ∈ k ↔ n ∈ l) :
    IntSet.ofList k = IntSet.ofList l := by
  have distinct (s : IntSet) : s.members.Nodup := s.ascending.imp fun lt => ne_of_lt lt
  have perm : (IntSet.ofList k).members.Perm (IntSet.ofList l).members := by
    apply (List.perm_ext_iff_of_nodup (distinct _) (distinct _)).mpr
    intro n
    rw [IntSet.mem_members_ofList, IntSet.mem_members_ofList, same]
  rw [IntSet.mk.injEq]
  exact perm.eq_of_pairwise (fun a b _ _ less more => absurd more (not_lt_of_gt less))
    (IntSet.ofList k).ascending (IntSet.ofList l).ascending

/-- The cron of one group has its hour and its minutes. -/
theorem parseCronSchedule_hour {hour : Int} {minutes : List Int} (some : minutes ≠ [])
    (hours : 0 ≤ hour ∧ hour ≤ 24) (within : ∀ minute ∈ minutes, 0 ≤ minute ∧ minute ≤ 59) :
    parseCronSchedule p (naturalCronFromHm [(.monthday, everyDaySlot)] (hourSlot hour minutes)) =
      .ok (hourSchedule hour minutes) := by
  rcases sortedValues_ints minutes with ⟨sorted, sortedEq, sortedSame⟩
  rcases naturalFieldText_ints sorted with ⟨ns, text, nsSame⟩
  have same : ∀ n, n ∈ ns ↔ n ∈ minutes := fun n => (nsSame n).trans (sortedSame n)
  have nsSome : ns ≠ [] := by
    rcases List.exists_mem_of_ne_nil minutes some with ⟨n, mem⟩
    exact List.ne_nil_of_mem ((same n).mpr mem)
  have minuteField : parseSimpleField p minutesRule ([','].intercalate (ns.map digits)) =
      .ok ⟨IntSet.ofList minutes, false⟩ := by
    rw [parseSimpleField_digits rfl rfl (by decide) (by decide) nsSome fun n mem =>
      within n ((same n).mp mem)]
    have ids : ns.map minutesRule.normalize = ns := List.map_id ns
    rw [ids, ofList_congr same]
  have hourField : parseSimpleField p hoursRule (digits hour) =
      .ok ⟨IntSet.ofList [normalizeHour hour], false⟩ := by
    have one : parseSimpleField p hoursRule ([','].intercalate ([hour].map digits)) =
        .ok ⟨IntSet.ofList ([hour].map hoursRule.normalize), false⟩ := by
      apply parseSimpleField_digits rfl rfl (by decide) (by decide) (List.cons_ne_nil _ _)
      intro n mem
      rw [List.mem_singleton.mp mem]
      exact hours
    rw [List.map_cons, List.map_nil, List.intercalate_singleton] at one
    exact one
  have printed : naturalCronFromHm [(.monthday, everyDaySlot)] (hourSlot hour minutes) =
      unwords [[','].intercalate (ns.map digits), digits hour, ['*'], ['*'], ['*']] := by
    have minuteText : naturalFieldText (sortedValues (minutes.map .int)) =
        [','].intercalate (ns.map digits) := by rw [sortedEq, text]
    have hourText : naturalFieldText [.int hour] = digits hour := by
      rw [naturalFieldText, sortedValues_singleton]
      exact List.intercalate_singleton
    rw [← minuteText, ← hourText]
    rfl
  have solids : Solid ([','].intercalate (ns.map digits)) := by
    apply solid_intercalate
    · exact fun empty => nsSome (List.map_eq_nil_iff.mp empty)
    · intro part mem
      rcases List.mem_map.mp mem with ⟨n, -, rfl⟩
      exact solid_digits n
  have five : words (naturalCronFromHm [(.monthday, everyDaySlot)] (hourSlot hour minutes)) =
      [[','].intercalate (ns.map digits), digits hour, ['*'], ['*'], ['*']] := by
    rw [printed, words_unwords]
    simp only [List.flatMap_cons, List.flatMap_nil, words_of_solid solids,
      words_of_solid (solid_digits hour)]
    rfl
  rw [parseCronSchedule_five five, parseFields]
  dsimp only [bind, Except.bind]
  have day : stripDayAnd ['*'] = .ok (['*'], false) := rfl
  rw [day]
  dsimp only
  rw [minuteField, hourField]
  rfl

/-- The expression of an hour runs at its minutes, on every day. -/
theorem matchesWall_hourSchedule {hour : Int} {minutes : List Int} {wall : Int} :
    (hourSchedule hour minutes).MatchesWall wall ↔ microsecondOf wall = 0 ∧ secondOf wall = 0 ∧
      hourOf wall = normalizeHour hour ∧ minuteOf wall ∈ minutes := by
  have listed {ns : List Int} {n : Int} :
      (⟨IntSet.ofList ns, false⟩ : Field).matches n = true ↔ n ∈ ns := by
    rw [Field.matches, Bool.false_or, IntSet.contains, List.contains_iff_mem,
      IntSet.mem_members_ofList]
  have days : (hourSchedule hour minutes).matchesDate (dateOf wall) = true := rfl
  unfold Schedule.MatchesWall
  rw [days]
  unfold hourSchedule
  dsimp only
  rw [listed, listed, listed, List.mem_singleton, List.mem_singleton]
  constructor
  · rintro ⟨micro, second, minute, hour, -⟩
    exact ⟨micro, second, hour, minute⟩
  · rintro ⟨micro, second, hour, minute⟩
    exact ⟨micro, second, minute, hour, rfl⟩

end Expressions

/-! ## The union -/

section Union

variable (p : Platform)

/-- The cron of one group. -/
def groupText (group : List SlotValue × List SlotValue) : List Char :=
  naturalCronFromHm [(.monthday, everyDaySlot)]
    ⟨.hm, .many group.1, .many (sortedValues group.2), .none, .none⟩

/-- The slots of the times are rendered as one expression for each hour. -/
theorem naturalSlotsToCrons_times {times : List (Int × Int)} (some : times ≠ []) :
    naturalSlotsToCrons (everyDaySlot :: times.map timeSlot) =
      .ok ((groupByHours (times.map timeSlot)).map groupText) := by
  have clock : ∀ hm ∈ times.map timeSlot,
      hm.key = .hm ∧ (hm.weak.truthy || hm.strong.truthy) = false := by
    intro hm mem
    rcases List.mem_map.mp mem with ⟨time, -, rfl⟩
    exact ⟨rfl, rfl⟩
  have hms : (everyDaySlot :: times.map timeSlot).filter (fun slot => slot.key == .hm) =
      times.map timeSlot := by
    rw [List.filter_cons_of_neg (by decide)]
    exact List.filter_eq_self.mpr fun hm mem => beq_iff_eq.mpr (clock hm mem).1
  have others : (everyDaySlot :: times.map timeSlot).filter (fun slot => slot.key != .hm) =
      [everyDaySlot] := by
    rw [List.filter_cons_of_pos (by decide), List.filter_eq_nil_iff.mpr]
    intro hm mem
    rw [(clock hm mem).1]
    decide
  have someSlots : (times.map timeSlot).isEmpty = false := by simpa using some
  have merged := mergeGraded_ungraded (fun hm mem => (clock hm mem).2) (times.map timeSlot).length
  unfold naturalSlotsToCrons
  rw [hms, others]
  have grouped : [everyDaySlot].foldlM addSlot [] = .ok [(.monthday, everyDaySlot)] := rfl
  rw [grouped]
  dsimp only [bind, Except.bind]
  have timed : withTime [(.monthday, everyDaySlot)] (times.map timeSlot) = times.map timeSlot := by
    rw [withTime, someSlots]
    rfl
  have monthday : withMonthday [(.monthday, everyDaySlot)] (times.map timeSlot) =
      [(.monthday, everyDaySlot)] := by
    rw [withMonthday, someSlots]
    rfl
  rw [timed, monthday, determineNaturalHms, someSlots, if_neg Bool.false_ne_true, merged]
  change Except.ok (((groupByHours (times.map timeSlot)).map _).map _) = _
  rw [List.map_map]
  rfl

/-- A time that was read is one of the clock. -/
theorem WrittenTime.reading_bounds (t : WrittenTime) :
    (0 ≤ t.reading.1 ∧ t.reading.1 ≤ 24) ∧ 0 ≤ t.reading.2 ∧ t.reading.2 ≤ 59 := by
  refine ⟨?_, ?_⟩
  · have nonneg := decimalNumber_nonneg t.hour
    have bound := t.hourBound
    unfold reading adjustNaturalHour
    dsimp only
    split
    · rename_i afternoon
      rw [Bool.and_eq_true, decide_eq_true_eq] at afternoon
      omega
    · split <;> omega
  · unfold reading
    cases written : t.minute with
    | none => exact ⟨le_rfl, (by decide : (0 : Int) ≤ 59)⟩
    | some m => exact ⟨decimalNumber_nonneg m, t.minuteBound m written⟩

/-- The hour a run of the time is in: 24 is midnight. -/
def WrittenTime.hourOfDay (t : WrittenTime) : Int := normalizeHour t.reading.1

/-- The minute a run of the time is at. -/
def WrittenTime.minuteOfHour (t : WrittenTime) : Int := t.reading.2

/-- Each group is parsed as the schedule of its hour. -/
theorem parse_groups {groups : List (List SlotValue × List SlotValue)} {times : List (Int × Int)}
    (sound : ∀ group ∈ groups, ∃ hour minutes, group = ([.int hour], List.map .int minutes) ∧
      minutes ≠ [] ∧ ∀ minute ∈ minutes, (hour, minute) ∈ times)
    (bounds : ∀ hour minute, (hour, minute) ∈ times →
      (0 ≤ hour ∧ hour ≤ 24) ∧ 0 ≤ minute ∧ minute ≤ 59) :
    ∃ schedules, (groups.map groupText).mapM (parseCronSchedule p) = .ok schedules ∧
      List.Forall₂ (fun group s => ∃ hour minutes, group = ([.int hour], List.map .int minutes) ∧
        s = hourSchedule hour minutes) groups schedules := by
  induction groups with
  | nil => exact ⟨[], rfl, .nil⟩
  | cons group groups ih =>
      rcases sound group List.mem_cons_self with ⟨hour, minutes, rfl, some, listed⟩
      rcases ih fun other mem => sound other (List.mem_cons_of_mem _ mem) with
        ⟨schedules, parsed, each⟩
      have hours : 0 ≤ hour ∧ hour ≤ 24 := by
        rcases List.exists_mem_of_ne_nil minutes some with ⟨minute, mem⟩
        exact (bounds hour minute (listed minute mem)).1
      have first : parseCronSchedule p (groupText ([.int hour], List.map .int minutes)) =
          .ok (hourSchedule hour minutes) :=
        parseCronSchedule_hour p some hours fun minute mem =>
          (bounds hour minute (listed minute mem)).2
      refine ⟨hourSchedule hour minutes :: schedules, ?_, .cons ⟨hour, minutes, rfl, rfl⟩ each⟩
      rw [List.map_cons, List.mapM_cons, first, parsed]
      rfl

/-- A daily schedule with a list of clock times, of which no word is a time zone, expands to cron
expressions that are parsed, and that run together at the listed times of every day. -/
theorem daily_times_mean_their_union (l : TimeList) (short : l.everyDayAt.length ≤ 256)
    (zoneless : ∀ w ∈ words l.text, p.zoneInfo w = .notFound) :
    ∃ schedules, parseNatural p l.everyDayAt = .ok schedules ∧ ∀ wall,
      (∃ s ∈ schedules, s.MatchesWall wall) ↔ microsecondOf wall = 0 ∧ secondOf wall = 0 ∧
        ∃ t ∈ l.times, hourOf wall = t.hourOfDay ∧ minuteOf wall = t.minuteOfHour := by
  let times := l.times.map WrittenTime.reading
  have some : times ≠ [] := List.cons_ne_nil _ _
  have slots : timeSlots l = times.map timeSlot := by
    rw [timeSlots, List.map_map]
    rfl
  have gathers := groupByHours_gathers times
  have bounds : ∀ hour minute, (hour, minute) ∈ times →
      (0 ≤ hour ∧ hour ≤ 24) ∧ 0 ≤ minute ∧ minute ≤ 59 := by
    intro hour minute mem
    rcases List.mem_map.mp mem with ⟨t, -, same⟩
    have bound := t.reading_bounds
    rw [same] at bound
    exact bound
  rcases parse_groups p gathers.sound bounds with ⟨schedules, parsed, each⟩
  refine ⟨schedules, ?_, fun wall => ?_⟩
  · rw [parseNatural, expandNaturalSchedule_everyDayAt p l short zoneless, slots,
      naturalSlotsToCrons_times some]
    exact parsed
  · constructor
    · rintro ⟨s, mem, runs⟩
      rcases Relational.exists_of_mem_right each mem with ⟨group, inside, hour, minutes, rfl, rfl⟩
      rcases matchesWall_hourSchedule.mp runs with ⟨micro, second, atHour, atMinute⟩
      rcases gathers.sound _ inside with ⟨hour', minutes', same, -, listed⟩
      rcases Prod.mk.inj same with ⟨sameHour, sameMinutes⟩
      cases sameHour
      cases List.map_injective_iff.mpr (fun m n same => SlotValue.int.inj same) sameMinutes
      rcases List.mem_map.mp (listed _ atMinute) with ⟨t, mem, reading⟩
      exact ⟨micro, second, t, mem, by rw [atHour, WrittenTime.hourOfDay, reading],
        by rw [WrittenTime.minuteOfHour, reading]⟩
    · rintro ⟨micro, second, t, mem, atHour, atMinute⟩
      have inTimes : (t.reading.1, t.reading.2) ∈ times := List.mem_map_of_mem mem
      rcases gathers.complete _ _ inTimes with ⟨group, inside, hours, minute⟩
      rcases Relational.exists_of_mem_left each inside with ⟨s, listed, hour, minutes, rfl, rfl⟩
      refine ⟨_, listed, matchesWall_hourSchedule.mpr ⟨micro, second, ?_, ?_⟩⟩
      · cases hours
        exact atHour
      · rcases List.mem_map.mp minute with ⟨m, inside, same⟩
        cases same
        rw [atMinute]
        exact inside

end Union

/-- `9:30, 12am and 5 PM` -/
def morningAndEvening : TimeList where
  first := ⟨['9'], some ['3', '0'], none, ⟨by decide, forall_mem_of_all (by decide)⟩, by decide,
    by rintro m ⟨⟩; exact ⟨by decide, forall_mem_of_all (by decide)⟩, by decide⟩
  rest :=
    [(.comma, ⟨['1', '2'], none, some ⟨false, ['a', 'm'], by decide⟩,
        ⟨by decide, forall_mem_of_all (by decide)⟩, by decide, nofun, nofun⟩),
      (.and, ⟨['5'], none, some ⟨true, ['P', 'M'], by decide⟩,
        ⟨by decide, forall_mem_of_all (by decide)⟩, by decide, nofun, nofun⟩)]

/-- Three times of a day, the second on the hour. -/
theorem daily_times_of_morning_and_evening :
    morningAndEvening.times.map (fun t => (t.hourOfDay, t.minuteOfHour)) =
        [(9, 30), (0, 0), (17, 0)] ∧
      ∃ schedules, parseNatural plainPlatform "every day at 9:30, 12am and 5 PM".toList =
          .ok schedules ∧ ∀ wall, (∃ s ∈ schedules, s.MatchesWall wall) ↔
            microsecondOf wall = 0 ∧ secondOf wall = 0 ∧ ∃ t ∈ morningAndEvening.times,
              hourOf wall = t.hourOfDay ∧ minuteOf wall = t.minuteOfHour :=
  ⟨by decide,
    daily_times_mean_their_union plainPlatform morningAndEvening (by decide) fun _ _ => rfl⟩

end DjQueue.Crontab
