import DjQueue.Crontab.Accepted

/-!
# The expressions a natural schedule prints

The cron expressions of one natural schedule differ in their minutes and hours only, and those are
one word each: all of them end in the same word and are read in the same time zone.
-/

namespace DjQueue.Crontab

open Regex Relational

/-! ## Words -/

/-- One word. -/
def Solid (cs : List Char) : Prop := cs ≠ [] ∧ ∀ c ∈ cs, isSpace c = false

instance (cs : List Char) : Decidable (Solid cs) := inferInstanceAs (Decidable (_ ∧ _))

theorem words_nil : words [] = [] := by decide

theorem words_of_solid {cs : List Char} (solid : Solid cs) : words cs = [cs] := by
  rw [words, List.splitOnP_eq_singleton solid.2]
  cases cs with
  | nil => exact absurd rfl solid.1
  | cons c cs => rfl

/-- The words of two texts with a blank between. -/
theorem words_append (a b : List Char) : words (a ++ ' ' :: b) = words a ++ words b := by
  rw [words, List.splitOnP_append_cons a b (by decide), List.filter_append]
  rfl

/-- Joining texts with blanks joins their words. -/
theorem words_unwords (parts : List (List Char)) : words (unwords parts) = parts.flatMap words := by
  induction parts with
  | nil => exact words_nil
  | cons part rest ih =>
      cases rest with
      | nil => simp [unwords]
      | cons next rest =>
          rw [unwords, List.intercalate_cons_cons, List.append_assoc, List.singleton_append,
            words_append, List.flatMap_cons, ← ih]
          rfl

theorem solid_append {a b : List Char} (ha : Solid a) (hb : ∀ c ∈ b, isSpace c = false) :
    Solid (a ++ b) := by
  refine ⟨by simp [ha.1], ?_⟩
  intro c mem
  rcases List.mem_append.mp mem with left | right
  · exact ha.2 c left
  · exact hb c right

/-- Words with commas between are one word. -/
theorem solid_intercalate {parts : List (List Char)} (some : parts ≠ [])
    (solid : ∀ part ∈ parts, Solid part) : Solid ([','].intercalate parts) := by
  induction parts with
  | nil => exact absurd rfl some
  | cons part rest ih =>
      have first := solid part List.mem_cons_self
      cases rest with
      | nil =>
          rw [List.intercalate_singleton]
          exact first
      | cons next rest =>
          have later := ih (by simp) (fun part mem => solid part (List.mem_cons_of_mem _ mem))
          rw [List.intercalate_cons_cons, List.append_assoc, List.singleton_append]
          refine solid_append first ?_
          intro c mem
          rcases List.mem_cons.mp mem with rfl | mem
          · decide
          · exact later.2 c mem

/-! ## Printed values -/

/-- Text that prints no blank is a word. -/
theorem solid_of_all {cs : List Char} (some : cs.isEmpty = false)
    (printed : cs.all (fun c => !isSpace c) = true) : Solid cs := by
  refine ⟨List.isEmpty_eq_false_iff.mp some, ?_⟩
  intro c mem
  simpa using List.all_eq_true.mp printed c mem

theorem isSpace_of_isDigit {c : Char} (digit : c.isDigit = true) : isSpace c = false := by
  have range : 48 ≤ c.toNat ∧ c.toNat ≤ 57 := by
    simp only [Char.isDigit, Bool.and_eq_true, decide_eq_true_eq] at digit
    exact ⟨digit.1, digit.2⟩
  rw [isSpace, Bool.eq_false_iff]
  intro mem
  have := List.contains_iff_mem.mp mem
  simp only [whitespaceCodes, List.mem_cons, List.not_mem_nil, or_false] at this
  omega

theorem solid_digits (n : Int) : Solid (digits n) := by
  have natural (n : Nat) : Solid n.repr.toList := by
    rw [Nat.toList_repr]
    exact ⟨Nat.toDigits_ne_nil,
      fun c mem => isSpace_of_isDigit (Nat.isDigit_of_mem_toDigits (by decide) (by decide) mem)⟩
  rw [digits, Int.toString_eq_repr, Int.repr_eq_if]
  split
  · exact natural _
  · rw [String.toList_append]
    exact solid_append (a := "-".toList) (solid_of_all rfl rfl) (natural _).2

theorem solid_rangeValue (start stop : Int) : Solid (rangeValue start stop).text := by
  refine solid_append (solid_digits start) ?_
  intro c mem
  rcases List.mem_cons.mp mem with rfl | mem
  · rfl
  · exact (solid_digits stop).2 c mem

theorem solid_star : Solid star.text := solid_of_all rfl rfl

/-- All values of the data print as words. -/
def SlotData.Solid (data : SlotData) : Prop := ∀ v ∈ data.values, Crontab.Solid v.text

theorem solid_int (n : Int) : Solid (SlotValue.int n).text := solid_digits n

theorem SlotData.solid_one {v : SlotValue} (h : Crontab.Solid v.text) : (SlotData.one v).Solid := by
  intro v' mem
  rw [SlotData.values, List.mem_singleton] at mem
  exact mem ▸ h

/-- Slots whose values are words; the time zone's need not be. -/
structure Slot.Printable (slot : Slot) : Prop where
  some : slot.key ≠ .tz → slot.data0.values ≠ []
  solid0 : slot.key ≠ .tz → slot.data0.Solid
  solid1 : slot.key ≠ .tz → slot.data1.Solid

theorem Slot.printable_of {key : SlotKey} {data0 data1 : SlotData} {weak strong : Grade}
    (some : data0.values ≠ []) (solid0 : data0.Solid) (solid1 : data1.Solid) :
    (⟨key, data0, data1, weak, strong⟩ : Slot).Printable :=
  ⟨fun _ => some, fun _ => solid0, fun _ => solid1⟩

theorem solid_none : SlotData.none.Solid := by
  intro v mem
  cases mem

/-! ## Merging -/

section Merging

variable {slot other : Slot} {index : Nat} {left right : SlotData}

/-- What is explicit is among the values. -/
theorem explicit_subset {data : SlotData} {v : SlotValue} (mem : v ∈ data.explicit) :
    v ∈ data.values := by
  unfold SlotData.explicit at mem
  split at mem
  · cases mem
  · exact mem

/-- Merged data print as words if both do. -/
theorem solid_merge (hl : left.Solid) (hr : right.Solid) :
    (slot.merge other index left right).Solid := by
  unfold Slot.merge
  split_ifs
  · exact hl
  · exact hr
  · exact hl
  · exact hr
  · exact SlotData.solid_one solid_star
  · intro v mem
    rcases List.mem_append.mp mem with inLeft | inRight
    · exact hl v (explicit_subset inLeft)
    · exact hr v (explicit_subset inRight)

theorem merge_ne_nil (hl : left.values ≠ []) (hr : right.values ≠ []) :
    (slot.merge other index left right).values ≠ [] := by
  unfold Slot.merge
  split_ifs with h₁ h₂ h₃ h₄ stars
  · exact hl
  · exact hr
  · exact hl
  · exact hr
  · simp [SlotData.values]
  · -- one of the two is no star, and stands in the list
    rw [SlotData.values, SlotData.explicit, SlotData.explicit]
    cases hls : left.isStar with
    | false => simp [hl]
    | true =>
        cases hrs : right.isStar with
        | false => simp [hr]
        | true => simp [hls, hrs] at stars

/-- The hours of a range print as words. -/
theorem naturalHourRange_spec (hours : Int × Int) :
    (Slot.naturalHourRange hours).values ≠ [] ∧ (Slot.naturalHourRange hours).Solid := by
  unfold Slot.naturalHourRange
  split
  · exact ⟨by simp [SlotData.values], SlotData.solid_one (solid_int _)⟩
  · exact ⟨by simp [SlotData.values], SlotData.solid_one (solid_rangeValue _ _)⟩

theorem conflate0_spec (hs : slot.data0.values ≠ [] ∧ slot.data0.Solid)
    (ho : other.data0.values ≠ [] ∧ other.data0.Solid) :
    Yields (fun data => data.values ≠ [] ∧ data.Solid) (slot.conflate0 other) := by
  unfold Slot.conflate0
  split
  · exact Yields.ok hs
  · exact Yields.ok ho
  · refine Yields.bind (Yields.trivial _) ?_
    intro own _
    cases own with
    | some hours => exact Yields.pure (naturalHourRange_spec hours)
    | none =>
        refine Yields.bind (Yields.trivial _) ?_
        intro others _
        cases others with
        | some hours => exact Yields.pure (naturalHourRange_spec hours)
        | none => exact Yields.pure ⟨merge_ne_nil hs.1 ho.1, solid_merge hs.2 ho.2⟩

theorem solid_conflate1 (hs : slot.data1.Solid) (ho : other.data1.Solid) :
    (slot.conflate1 other).Solid := by
  unfold Slot.conflate1
  split
  · exact hs
  · exact ho
  · exact solid_merge hs ho

/-- Slots of one key merge into a slot of that key. -/
theorem append_printable (same : slot.key = other.key) (hs : slot.Printable)
    (ho : other.Printable) :
    Yields (fun merged => merged.Printable ∧ merged.key = slot.key) (slot.append other) := by
  unfold Slot.append
  by_cases tz : slot.key = .tz
  · refine Yields.bind (Yields.trivial _) ?_
    intro data _
    exact Yields.pure ⟨⟨fun h => absurd tz h, fun h => absurd tz h, fun h => absurd tz h⟩, rfl⟩
  · have tz' : other.key ≠ .tz := same ▸ tz
    refine Yields.bind (conflate0_spec ⟨hs.some tz, hs.solid0 tz⟩ ⟨ho.some tz', ho.solid0 tz'⟩) ?_
    rintro data ⟨some, solid⟩
    exact Yields.pure ⟨Slot.printable_of some solid
      (solid_conflate1 (hs.solid1 tz) (ho.solid1 tz')), rfl⟩

end Merging

/-! ## Grouping -/

section Grouping

variable {slots : Slots} {slot : Slot}

/-- Every slot of the dictionary prints, under its own key. -/
def Slots.Printable (slots : Slots) : Prop :=
  ∀ entry ∈ slots, entry.1 = entry.2.key ∧ entry.2.Printable

/-- A slot that is found in the dictionary prints. -/
theorem printable_of_lookup (h : slots.Printable) {key : SlotKey}
    (found : slots.lookup key = some slot) : slot.key = key ∧ slot.Printable := by
  induction slots with
  | nil => cases found
  | cons entry rest ih =>
      obtain ⟨key', slot'⟩ := entry
      rw [List.lookup_cons] at found
      split at found
      · cases found
        obtain ⟨own, printable⟩ := h _ List.mem_cons_self
        rename_i same
        rw [beq_iff_eq] at same
        exact ⟨(same.trans own).symm, printable⟩
      · exact ih (fun entry mem => h entry (List.mem_cons_of_mem _ mem)) found

/-- A slot is put to the dictionary, or joined with the one that is there. -/
theorem addSlot_printable (h : slots.Printable) (hs : slot.Printable) :
    Yields Slots.Printable (addSlot slots slot) := by
  unfold addSlot
  cases found : slots.lookup slot.key with
  | none =>
      refine Yields.ok ?_
      intro entry mem
      rcases List.mem_append.mp mem with old | new
      · exact h entry old
      · rw [List.mem_singleton.mp new]
        exact ⟨rfl, hs⟩
  | some old =>
      obtain ⟨key, printable⟩ := printable_of_lookup h found
      refine Yields.bind (append_printable key printable hs) ?_
      rintro new ⟨newPrintable, newKey⟩
      refine Yields.pure ?_
      intro entry mem
      obtain ⟨entry', mem', rfl⟩ := List.mem_map.mp mem
      split
      · rename_i same
        exact ⟨same.trans (key.symm.trans newKey.symm), newPrintable⟩
      · exact h entry' mem'

/-- The values of a key, or the default, print as words. -/
theorem naturalSlotValues_spec (h : slots.Printable) {key : SlotKey} (notTz : key ≠ .tz)
    {default : SlotValue} (hd : Solid default.text) :
    naturalSlotValues slots key default ≠ [] ∧
      ∀ v ∈ naturalSlotValues slots key default, Solid v.text := by
  unfold naturalSlotValues
  cases found : slots.lookup key with
  | none => exact ⟨by simp, fun v mem => List.mem_singleton.mp mem ▸ hd⟩
  | some slot =>
      obtain ⟨own, printable⟩ := printable_of_lookup h found
      have notTz' : slot.key ≠ .tz := own ▸ notTz
      exact ⟨printable.some notTz', printable.solid0 notTz'⟩

/-- Clock slots, as they are merged. -/
def ClockSlots (hms : List Slot) : Prop := ∀ hm ∈ hms, hm.key = .hm ∧ hm.Printable

/-- Slots of a clock are merged into slots of a clock. -/
theorem mergeGraded_clock {fuel : Nat} {hms : List Slot} (h : ClockSlots hms) :
    Yields ClockSlots (mergeGraded fuel hms) := by
  induction fuel generalizing hms with
  | zero => exact Yields.ok h
  | succ fuel ih =>
      unfold mergeGraded
      split
      · exact Yields.ok h
      · split
        · exact Yields.ok h
        · dsimp only
          split
          · rename_i graded _ slot neighbour atGraded atOther
            obtain ⟨key, printable⟩ := h _ (List.mem_of_getElem? atGraded)
            obtain ⟨key', printable'⟩ := h _ (List.mem_of_getElem? atOther)
            refine Yields.bind (append_printable (key.trans key'.symm) printable printable') ?_
            rintro merged ⟨mergedPrintable, mergedKey⟩
            refine ih ?_
            intro hm mem
            rcases List.mem_or_eq_of_mem_set (List.mem_of_mem_eraseIdx mem) with old | rfl
            · exact h hm old
            · exact ⟨mergedKey.trans key, mergedPrintable⟩
          · exact Yields.ok h

theorem mem_sortedValues {values : List SlotValue} {v : SlotValue} :
    v ∈ sortedValues values ↔ v ∈ values := by
  rw [sortedValues, List.mem_insertionSort, List.mem_dedup]

/-- Sorting keeps a list from being empty. -/
theorem sortedValues_ne_nil {values : List SlotValue} (h : values ≠ []) :
    sortedValues values ≠ [] := by
  obtain ⟨v, mem⟩ := List.exists_mem_of_ne_nil values h
  exact List.ne_nil_of_mem (mem_sortedValues.mpr mem)

/-- Hours and minutes that are printed as a word each. -/
def GroupsPrintable (groups : List (List SlotValue × List SlotValue)) : Prop :=
  ∀ group ∈ groups, (group.1 ≠ [] ∧ ∀ v ∈ group.1, Solid v.text) ∧
    group.2 ≠ [] ∧ ∀ v ∈ group.2, Solid v.text

/-- A minute is put to a group that prints. -/
theorem addMinute_printable {groups : List (List SlotValue × List SlotValue)}
    (h : GroupsPrintable groups) {hours : List SlotValue} {minute : SlotValue}
    (hh : hours ≠ [] ∧ ∀ v ∈ hours, Solid v.text) (hm : Solid minute.text) :
    GroupsPrintable (addMinute groups hours minute) := by
  unfold addMinute
  split
  · intro group mem
    obtain ⟨group', mem', rfl⟩ := List.mem_map.mp mem
    obtain ⟨old, -, oldMinutes⟩ := h group' mem'
    split
    · refine ⟨hh, by simp, ?_⟩
      intro v inside
      rcases List.mem_append.mp inside with earlier | new
      · exact oldMinutes v earlier
      · exact List.mem_singleton.mp new ▸ hm
    · exact h group' mem'
  · intro group mem
    rcases List.mem_append.mp mem with old | new
    · exact h group old
    · rw [List.mem_singleton.mp new]
      exact ⟨hh, by simp, fun v inside => List.mem_singleton.mp inside ▸ hm⟩

theorem groupByHours_printable {hms : List Slot} (h : ClockSlots hms) :
    GroupsPrintable (groupByHours hms) := by
  refine List.foldlRecOn hms _ (motive := GroupsPrintable) (fun group mem => by cases mem) ?_
  intro groups printable hm mem
  obtain ⟨key, slot⟩ := h hm mem
  have notTz : hm.key ≠ .tz := by
    rw [key]
    decide
  refine List.foldlRecOn hm.data1.values _ (motive := GroupsPrintable) printable ?_
  intro groups printable minute inside
  refine addMinute_printable printable ⟨sortedValues_ne_nil (slot.some notTz), ?_⟩
    (slot.solid1 notTz minute inside)
  intro v sorted
  exact slot.solid0 notTz v (mem_sortedValues.mp sorted)

/-- A clock slot whose hours and whose minutes are printed as a word each. -/
structure ClockPrinted (hm : Slot) : Prop where
  hours : hm.data0.values ≠ [] ∧ hm.data0.Solid
  minutes : hm.data1.values ≠ [] ∧ hm.data1.Solid

/-- The times that are determined print. -/
theorem determineNaturalHms_printed {hms : List Slot} (h : ClockSlots hms) :
    Yields (fun determined => ∀ hm ∈ determined, ClockPrinted hm) (determineNaturalHms hms) := by
  unfold determineNaturalHms
  split
  · refine Yields.ok ?_
    intro hm mem
    rw [List.mem_singleton.mp mem]
    have solid := SlotData.solid_one solid_star
    exact ⟨⟨by simp [SlotData.values], solid⟩, by simp [SlotData.values], solid⟩
  · refine Yields.bind (mergeGraded_clock h) ?_
    intro merged clock
    refine Yields.pure ?_
    intro hm mem
    obtain ⟨group, inside, rfl⟩ := List.mem_map.mp mem
    obtain ⟨hours, minutes⟩ := groupByHours_printable clock group inside
    exact ⟨hours, sortedValues_ne_nil minutes.1,
      fun v sorted => minutes.2 v (mem_sortedValues.mp sorted)⟩

theorem naturalFieldText_solid {values : List SlotValue} (some : values ≠ [])
    (solid : ∀ v ∈ values, Solid v.text) : Solid (naturalFieldText values) := by
  refine solid_intercalate ?_ ?_
  · intro empty
    exact sortedValues_ne_nil some (List.map_eq_nil_iff.mp empty)
  · intro part mem
    obtain ⟨v, sorted, rfl⟩ := List.mem_map.mp mem
    exact solid v (mem_sortedValues.mp sorted)

/-- The words of a printed expression: only two of them depend on the clock slot. -/
theorem words_naturalCronFromHm (h : slots.Printable) : ∃ before after : List (List Char),
    after ≠ [] ∧ ∀ hm, ClockPrinted hm → ∃ minute hour,
      words (naturalCronFromHm slots hm) = before ++ minute :: hour :: after := by
  let seconds := naturalSlotValues slots .second (.str ['0'])
  let later := [naturalSlotValues slots .monthday star, naturalSlotValues slots .month star,
    naturalSlotValues slots .weekday star] ++
    ((slots.lookup .tz).map (fun slot => slot.data0.values)).toList
  refine ⟨(if seconds = [.str ['0']] then [] else [naturalFieldText seconds]).flatMap words,
    (later.map naturalFieldText).flatMap words, ?_, ?_⟩
  · have notTz : SlotKey.monthday ≠ .tz := by decide
    obtain ⟨some, solid⟩ := naturalSlotValues_spec h notTz solid_star
    have first := words_of_solid (naturalFieldText_solid some solid)
    simp [later, first]
  · intro hm printed
    have minute := words_of_solid (naturalFieldText_solid printed.minutes.1 printed.minutes.2)
    have hour := words_of_solid (naturalFieldText_solid printed.hours.1 printed.hours.2)
    refine ⟨naturalFieldText hm.data1.values, naturalFieldText hm.data0.values, ?_⟩
    rw [naturalCronFromHm, words_unwords]
    simp only [List.map_append, List.map_cons, List.flatMap_append, List.flatMap_cons, minute,
      hour, later, seconds]
    split <;> simp

end Grouping

end DjQueue.Crontab
