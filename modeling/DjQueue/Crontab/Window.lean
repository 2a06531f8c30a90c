import DjQueue.Crontab.Search

/-!
# The readings a search visits

The loops over days, hours, minutes and seconds are one walk over an ordered list of wall clock
readings, namely the readings of the window that the schedule matches, less those skipped on the
base's own date.
-/

namespace DjQueue.Crontab

open Enumeration

/-! ## Readings -/

/-- The reading of a date and a clock. -/
def wallOf (date hour minute second : Int) : Int :=
  midnight date + hour * hourLength + minute * minuteLength + second * secondLength

/-- An hour, a minute and a second of a clock. -/
structure ClockTime (hour minute second : Int) : Prop where
  hour : 0 ≤ hour ∧ hour ≤ 23
  minute : 0 ≤ minute ∧ minute ≤ 59
  second : 0 ≤ second ∧ second ≤ 59

section Readings

variable {date hour minute second wall : Int}

theorem secondLength_eq : secondLength = 1000000 := rfl
theorem minuteLength_eq : minuteLength = 60000000 := by decide
theorem hourLength_eq : hourLength = 3600000000 := by decide
theorem dayLength_eq : dayLength = 86400000000 := by decide
/-- The ordinal of the first of January 1970. -/
theorem epochOrdinal_eq : epochOrdinal = 719163 := rfl

theorem datetimeAt_eq (h : ClockTime hour minute second) :
    datetimeAt date hour minute second = .ok (wallOf date hour minute second) := by
  unfold datetimeAt wallOf
  rw [if_neg (not_not.mpr h.hour), if_neg (not_not.mpr h.minute), if_neg (not_not.mpr h.second)]

theorem dateOf_wallOf (h : ClockTime hour minute second) :
    dateOf (wallOf date hour minute second) = date := by
  obtain ⟨hh, hm, hs⟩ := h
  rw [dateOf_eq_iff, wallOf, dayLength_eq, hourLength_eq, minuteLength_eq, secondLength_eq]
  omega

theorem hourOf_wallOf (h : ClockTime hour minute second) :
    hourOf (wallOf date hour minute second) = hour := by
  obtain ⟨hh, hm, hs⟩ := h
  rw [hourOf, wallOf, midnight, dayLength_eq, hourLength_eq, minuteLength_eq, secondLength_eq]
  omega

theorem minuteOf_wallOf (h : ClockTime hour minute second) :
    minuteOf (wallOf date hour minute second) = minute := by
  obtain ⟨hh, hm, hs⟩ := h
  rw [minuteOf, wallOf, midnight, dayLength_eq, hourLength_eq, minuteLength_eq, secondLength_eq]
  omega

theorem secondOf_wallOf (h : ClockTime hour minute second) :
    secondOf (wallOf date hour minute second) = second := by
  obtain ⟨hh, hm, hs⟩ := h
  rw [secondOf, wallOf, midnight, dayLength_eq, hourLength_eq, minuteLength_eq, secondLength_eq]
  omega

/-- A reading of the schedule has no microseconds. -/
theorem microsecondOf_wallOf (date hour minute second : Int) :
    microsecondOf (wallOf date hour minute second) = 0 := by
  rw [microsecondOf, wallOf, midnight, dayLength_eq, hourLength_eq, minuteLength_eq,
    secondLength_eq]
  omega

/-- The clock of a reading is one of the clock. -/
theorem clockTime (wall : Int) : ClockTime (hourOf wall) (minuteOf wall) (secondOf wall) := by
  constructor <;>
    simp only [hourOf, minuteOf, secondOf, dayLength_eq, hourLength_eq, minuteLength_eq,
      secondLength_eq] <;>
    omega

/-- A reading by its date and its clock. -/
theorem wallOf_parts (wall : Int) :
    wall = wallOf (dateOf wall) (hourOf wall) (minuteOf wall) (secondOf wall) +
      microsecondOf wall := by
  simp only [wallOf, midnight, dateOf, hourOf, minuteOf, secondOf, microsecondOf, dayLength_eq,
    hourLength_eq, minuteLength_eq, secondLength_eq, epochOrdinal_eq]
  omega

end Readings

/-! ## Orders -/

namespace Direction

variable {d : Direction} {a b c : Int}

/-- The order of a search is transitive. -/
theorem Before.trans (first : d.Before a b) (second : d.Before b c) : d.Before a c :=
  lt_trans first second

theorem Before.irrefl : ¬ d.Before a a := lt_irrefl _

/-- The order of a search keeps the members. -/
@[simp] theorem mem_ordered {s : IntSet} : a ∈ d.ordered s ↔ a ∈ s.members := by
  cases d with
  | next => rfl
  | previous => exact List.mem_reverse

/-- The members come in the order of the search. -/
theorem pairwise_ordered (d : Direction) (s : IntSet) : (d.ordered s).Pairwise d.Before := by
  cases d with
  | next => exact s.ascending.imp (fun h => by simpa [Before, sign] using h)
  | previous =>
      rw [ordered, List.pairwise_reverse]
      exact s.ascending.imp (fun h => by simpa [Before, sign] using h)

/-- Readings are ordered by their dates first, then by hour, minute and second. -/
theorem before_wallOf {date date' h h' m m' s s' : Int} (t : ClockTime h m s)
    (t' : ClockTime h' m' s')
    (lex : d.Before date date' ∨ date = date' ∧ (d.Before h h' ∨ h = h' ∧ (d.Before m m' ∨
      m = m' ∧ d.Before s s'))) :
    d.Before (wallOf date h m s) (wallOf date' h' m' s') := by
  obtain ⟨hh, hm, hs⟩ := t
  obtain ⟨hh', hm', hs'⟩ := t'
  cases d <;>
    simp only [Before, sign, wallOf, midnight, dayLength_eq, hourLength_eq, minuteLength_eq,
      secondLength_eq] at lex ⊢ <;>
    omega

end Direction

/-! ## One date -/

/-- The readings of a date whose clock is in the fields. -/
def readings (s : Schedule) (d : Direction) (date : Int) : List Int :=
  (d.ordered s.hours.values).flatMap (fun hour =>
    (d.ordered s.minutes.values).flatMap (fun minute =>
      (d.ordered s.seconds.values).map (wallOf date hour minute)))

/-- The search does not pass the reading over. -/
def keepsWall (t : Timeline) (d : Direction) (skip : Bool) (wall : Int) : Bool :=
  keepsHour t d skip (dateOf wall) (hourOf wall) &&
    keepsMinute t d skip (dateOf wall) (hourOf wall) (minuteOf wall)

/-- A filter in front of a loop is a condition inside it. -/
theorem flatMap_filter_if {α β : Type} (p : α → Bool) (f : α → List β) (l : List α) :
    (l.filter p).flatMap f = l.flatMap (fun a => if p a then f a else []) := by
  induction l with
  | nil => rfl
  | cons a l ih =>
      cases keep : p a with
      | true => rw [List.filter_cons_of_pos keep, List.flatMap_cons, List.flatMap_cons, ih, keep,
          if_pos rfl]
      | false =>
          rw [List.filter_cons_of_neg (by simp [keep]), List.flatMap_cons, ih, keep]
          rfl

section Schedule

variable {s : Schedule} {t : Timeline} {d : Direction} {skip : Bool} {date wall : Int}

/-- The values of an accepted schedule are those of a clock. -/
theorem Schedule.ClockFields.clockTime (fields : s.ClockFields) {h m sec : Int}
    (hh : h ∈ s.hours.values.members) (hm : m ∈ s.minutes.values.members)
    (hs : sec ∈ s.seconds.values.members) : ClockTime h m sec :=
  ⟨fields.hours.bound h hh, fields.minutes.bound m hm, fields.seconds.bound sec hs⟩

/-- The loops of one date are one loop over its readings. -/
theorem searchTimes_eq (fields : s.ClockFields) :
    searchTimes s t d skip date =
      firstOver (searchWall t d) ((readings s d date).filter (keepsWall t d skip)) := by
  have inner : ∀ hour ∈ d.ordered s.hours.values, ∀ minute ∈ d.ordered s.minutes.values,
      firstOver (fun second => do
        let wall ← datetimeAt date hour minute second
        searchWall t d wall) (d.ordered s.seconds.values) =
      firstOver (searchWall t d) ((d.ordered s.seconds.values).map (wallOf date hour minute)) := by
    intro hour hh minute hm
    rw [firstOver_map]
    refine firstOver_congr ?_
    intro second hs
    rw [datetimeAt_eq (fields.clockTime (Direction.mem_ordered.mp hh) (Direction.mem_ordered.mp hm)
      (Direction.mem_ordered.mp hs))]
    rfl
  have flat : searchTimes s t d skip date = firstOver (searchWall t d)
      (((d.ordered s.hours.values).filter (keepsHour t d skip date)).flatMap (fun hour =>
        ((d.ordered s.minutes.values).filter (keepsMinute t d skip date hour)).flatMap
          (fun minute => (d.ordered s.seconds.values).map (wallOf date hour minute)))) := by
    rw [← firstOver_firstOver]
    refine firstOver_congr ?_
    intro hour hh
    rw [← firstOver_firstOver]
    refine firstOver_congr ?_
    intro minute hm
    exact inner hour (List.mem_of_mem_filter hh) minute (List.mem_of_mem_filter hm)
  rw [flat, readings, flatMap_filter_if, List.filter_flatMap]
  congr 1
  refine List.flatMap_congr ?_
  intro hour hh
  rw [flatMap_filter_if, List.filter_flatMap]
  have kept : ∀ minute ∈ d.ordered s.minutes.values,
      ((d.ordered s.seconds.values).map (wallOf date hour minute)).filter (keepsWall t d skip) =
        if keepsHour t d skip date hour && keepsMinute t d skip date hour minute then
          (d.ordered s.seconds.values).map (wallOf date hour minute) else [] := by
    intro minute hm
    have same : ∀ wall ∈ (d.ordered s.seconds.values).map (wallOf date hour minute),
        keepsWall t d skip wall =
          (keepsHour t d skip date hour && keepsMinute t d skip date hour minute) := by
      intro wall inside
      obtain ⟨second, hs, rfl⟩ := List.mem_map.mp inside
      have clock := fields.clockTime (Direction.mem_ordered.mp hh) (Direction.mem_ordered.mp hm)
        (Direction.mem_ordered.mp hs)
      rw [keepsWall, dateOf_wallOf clock, hourOf_wallOf clock, minuteOf_wallOf clock]
    rw [List.filter_congr same]
    cases keepsHour t d skip date hour && keepsMinute t d skip date hour minute <;> simp
  cases keep : keepsHour t d skip date hour with
  | true =>
      refine List.flatMap_congr ?_
      intro minute hm
      rw [kept minute hm, keep]
      rfl
  | false =>
      refine (List.flatMap_eq_nil_iff.mpr ?_).symm
      intro minute hm
      rw [kept minute hm, keep]
      rfl

/-- The readings of a date are those the fields match. -/
theorem mem_readings (fields : s.ClockFields) :
    wall ∈ readings s d date ↔ dateOf wall = date ∧ microsecondOf wall = 0 ∧
      s.seconds.matches (secondOf wall) = true ∧ s.minutes.matches (minuteOf wall) = true ∧
      s.hours.matches (hourOf wall) = true := by
  have clock := clockTime wall
  rw [fields.seconds.matches_iff clock.second, fields.minutes.matches_iff clock.minute,
    fields.hours.matches_iff clock.hour]
  simp only [readings, List.mem_flatMap, List.mem_map, Direction.mem_ordered]
  constructor
  · rintro ⟨hour, hh, minute, hm, second, hs, rfl⟩
    have inside := fields.clockTime hh hm hs
    rw [dateOf_wallOf inside, microsecondOf_wallOf, secondOf_wallOf inside, minuteOf_wallOf inside,
      hourOf_wallOf inside]
    exact ⟨rfl, rfl, hs, hm, hh⟩
  · rintro ⟨rfl, whole, hs, hm, hh⟩
    refine ⟨_, hh, _, hm, _, hs, ?_⟩
    have parts := wallOf_parts wall
    omega

/-- The readings of a date are in the order of the search. -/
theorem pairwise_readings (fields : s.ClockFields) : (readings s d date).Pairwise d.Before := by
  refine List.pairwise_flatMap.mpr ⟨?_, ?_⟩
  · intro hour hh
    refine List.pairwise_flatMap.mpr ⟨?_, ?_⟩
    · intro minute hm
      refine List.pairwise_map.mpr ?_
      refine (d.pairwise_ordered s.seconds.values).imp_of_mem ?_
      intro a b ha hb before
      rw [Direction.mem_ordered] at hh hm ha hb
      exact Direction.before_wallOf (fields.clockTime hh hm ha) (fields.clockTime hh hm hb)
        (Or.inr ⟨rfl, Or.inr ⟨rfl, Or.inr ⟨rfl, before⟩⟩⟩)
    · refine (d.pairwise_ordered s.minutes.values).imp_of_mem ?_
      intro m m' hm hm' before wall inside wall' inside'
      obtain ⟨sec, hs, rfl⟩ := List.mem_map.mp inside
      obtain ⟨sec', hs', rfl⟩ := List.mem_map.mp inside'
      rw [Direction.mem_ordered] at hh hm hm' hs hs'
      exact Direction.before_wallOf (fields.clockTime hh hm hs) (fields.clockTime hh hm' hs')
        (Or.inr ⟨rfl, Or.inr ⟨rfl, Or.inl before⟩⟩)
  · refine (d.pairwise_ordered s.hours.values).imp_of_mem ?_
    intro h h' hh hh' before wall inside wall' inside'
    obtain ⟨m, hm, inside⟩ := List.mem_flatMap.mp inside
    obtain ⟨m', hm', inside'⟩ := List.mem_flatMap.mp inside'
    obtain ⟨sec, hs, rfl⟩ := List.mem_map.mp inside
    obtain ⟨sec', hs', rfl⟩ := List.mem_map.mp inside'
    rw [Direction.mem_ordered] at hh hh' hm hm' hs hs'
    exact Direction.before_wallOf (fields.clockTime hh hm hs) (fields.clockTime hh' hm' hs')
      (Or.inr ⟨rfl, Or.inl before⟩)

/-! ## The whole window -/

/-- The `k`th date of the search. -/
def windowDate (t : Timeline) (d : Direction) (k : Nat) : Int := dateOf t.localBase + d.sign * k

/-- The date is one of those the search looks at. -/
def InWindow (t : Timeline) (d : Direction) (date : Int) : Prop :=
  ∃ k < maxSearchDays, date = windowDate t d k

/-- The readings of the window that the schedule matches, in the order of the search. -/
def windowReadings (s : Schedule) (t : Timeline) (d : Direction) : List Int :=
  (List.range' 0 maxSearchDays).flatMap (fun k =>
    if s.matchesDate (windowDate t d k) then readings s d (windowDate t d k) else [])

/-- A date is searched reading by reading. -/
theorem searchDate_eq (fields : s.ClockFields) :
    searchDate s t d skip date =
      firstOver (searchWall t d)
        ((if s.matchesDate date then readings s d date else []).filter (keepsWall t d skip)) := by
  unfold searchDate
  split
  · exact searchTimes_eq fields
  · rfl

/-- The window is searched reading by reading. -/
theorem firstOver_searchDate (fields : s.ClockFields) :
    firstOver (fun k => searchDate s t d skip (windowDate t d k)) (List.range' 0 maxSearchDays) =
      firstOver (searchWall t d) ((windowReadings s t d).filter (keepsWall t d skip)) := by
  rw [windowReadings, List.filter_flatMap, ← firstOver_firstOver]
  refine firstOver_congr ?_
  intro k _
  exact searchDate_eq fields

/-- The window begins at the date of the base. -/
theorem windowDate_zero : windowDate t d 0 = dateOf t.localBase := by
  simp [windowDate]

theorem windowDate_succ (k : Nat) : windowDate t d (k + 1) = windowDate t d k + d.sign := by
  unfold windowDate
  push_cast
  ring

/-- A search that returns has gone through the readings of its window. -/
theorem of_searchDates (fields : s.ClockFields) {r : Option Int}
    (h : searchDates s t d skip = .ok r) :
    firstOver (searchWall t d) ((windowReadings s t d).filter (keepsWall t d skip)) = .ok r := by
  unfold searchDates at h
  rw [← windowDate_zero (d := d)] at h
  rw [← firstOver_searchDate fields]
  refine firstOver_of_walk ?_ h
  intro k date step
  unfold addDays at step
  split at step
  · rw [windowDate_succ, ← Except.ok.inj step]
  · cases step

/-- The readings of the window are those the schedule matches. -/
theorem mem_windowReadings (fields : s.ClockFields) :
    wall ∈ windowReadings s t d ↔ s.MatchesWall wall ∧ InWindow t d (dateOf wall) := by
  simp only [windowReadings, List.mem_flatMap, List.mem_range'_1, Nat.zero_le, true_and, zero_add]
  constructor
  · rintro ⟨k, small, inside⟩
    cases date : s.matchesDate (windowDate t d k) with
    | false => simp [date] at inside
    | true =>
        rw [date, if_pos rfl, mem_readings fields] at inside
        obtain ⟨on, whole, hs, hm, hh⟩ := inside
        exact ⟨⟨whole, hs, hm, hh, on.symm ▸ date⟩, k, small, on⟩
  · rintro ⟨⟨whole, hs, hm, hh, date⟩, k, small, on⟩
    refine ⟨k, small, ?_⟩
    rw [← on, date, if_pos rfl, mem_readings fields]
    exact ⟨rfl, whole, hs, hm, hh⟩

/-- The readings of the window are in the order of the search. -/
theorem pairwise_windowReadings (fields : s.ClockFields) :
    (windowReadings s t d).Pairwise d.Before := by
  refine List.pairwise_flatMap.mpr ⟨?_, ?_⟩
  · intro k _
    split
    · exact pairwise_readings fields
    · exact List.Pairwise.nil
  · refine (List.pairwise_lt_range' (s := 0) (n := maxSearchDays)).imp ?_
    intro k k' before wall inside wall' inside'
    have on : dateOf wall = windowDate t d k := by
      split at inside
      · exact ((mem_readings fields).mp inside).1
      · cases inside
    have on' : dateOf wall' = windowDate t d k' := by
      split at inside'
      · exact ((mem_readings fields).mp inside').1
      · cases inside'
    have dates : d.Before (dateOf wall) (dateOf wall') := by
      rw [on, on', windowDate, windowDate]
      cases d <;> simp only [Direction.Before, Direction.sign] <;> omega
    -- a reading lies in the day of its date
    have day := dateOf_eq_iff.mp (rfl : dateOf wall = _)
    have day' := dateOf_eq_iff.mp (rfl : dateOf wall' = _)
    rw [midnight, dayLength_eq] at day day'
    cases d <;> simp only [Direction.Before, Direction.sign] at dates ⊢ <;> omega

end Schedule

end DjQueue.Crontab
