import Mathlib.Tactic.Ring

/-!
# The proleptic Gregorian calendar

Days are numbered as `date.toordinal()` numbers them: January 1st of year 1 is day 1.  Nothing
here stops at the years 1 and 9999; the callers do.
-/

namespace Calendar

/-- A date of the proleptic Gregorian calendar. -/
structure Civil where
  year : Int
  month : Int
  day : Int
deriving DecidableEq, Repr

/-- The rule of the leap years. -/
def isLeap (year : Int) : Bool := year % 4 == 0 && (year % 100 != 0 || year % 400 == 0)

/-- `calendar.monthrange(year, month)[1]` -/
def monthLength (year month : Int) : Int :=
  if month = 2 then (if isLeap year then 29 else 28)
  else if month = 4 ∨ month = 6 ∨ month = 9 ∨ month = 11 then 30
  else 31

/-- The days of all years before this one, from year 1. -/
def daysBeforeYear (year : Int) : Int :=
  365 * (year - 1) + (year - 1) / 4 - (year - 1) / 100 + (year - 1) / 400

/-- The days before a month in a common year. -/
def daysBeforeMonth (month : Int) : Int :=
  [0, 31, 59, 90, 120, 151, 181, 212, 243, 273, 304, 334].getD (month - 1).toNat 0

/-- The leap day, for the months behind it. -/
def leapShift (leap : Bool) (month : Int) : Int := if leap = true ∧ 2 < month then 1 else 0

/-- `date(year, month, day).toordinal()` -/
def ordinal (c : Civil) : Int :=
  daysBeforeYear c.year + (daysBeforeMonth c.month + leapShift (isLeap c.year) c.month) + c.day

/-- The month that holds the `n`th day of a year, counted from 0, and the days before it. -/
def monthOf (leap : Bool) (n : Int) : Int × Int :=
  let month := (n + 50) / 32
  let preceding := daysBeforeMonth month + leapShift leap month
  -- the estimate is exact or one too large
  if n < preceding then (month - 1, daysBeforeMonth (month - 1) + leapShift leap (month - 1))
  else (month, preceding)

/-- `date.fromordinal(n)`: the 400-year cycle, its centuries, their 4-year cycles and their years
are split off in turn. -/
def civil (n : Int) : Civil :=
  let n400 := (n - 1) / 146097
  let in400 := (n - 1) % 146097
  let n100 := in400 / 36524
  let in100 := in400 % 36524
  let n4 := in100 / 1461
  let in4 := in100 % 1461
  let n1 := in4 / 365
  let year := 400 * n400 + 100 * n100 + 4 * n4 + n1 + 1
  -- the last day of a 4-year or of a 400-year cycle
  if n1 = 4 ∨ n100 = 4 then ⟨year - 1, 12, 31⟩
  else
    let leap := n1 == 3 && (n4 != 24 || n100 == 3)
    let split := monthOf leap (in4 % 365)
    ⟨year, split.1, in4 % 365 - split.2 + 1⟩

/-- `date.weekday()`: Monday is 0. -/
def weekday (n : Int) : Int := (n + 6) % 7

theorem monthLength_bounds (year month : Int) :
    28 ≤ monthLength year month ∧ monthLength year month ≤ 31 := by
  unfold monthLength
  split_ifs <;> omega

/-- A year of a 400-year cycle, by its place in the cycle. -/
theorem daysBeforeYear_split (a : Int) {b c d : Int} (hb : 0 ≤ b ∧ b ≤ 3) (hc : 0 ≤ c ∧ c ≤ 24)
    (hd : 0 ≤ d ∧ d ≤ 3) :
    daysBeforeYear (400 * a + 100 * b + 4 * c + d + 1) =
      146097 * a + 36524 * b + 1461 * c + 365 * d := by
  unfold daysBeforeYear
  omega

/-- The leap rule by the place of a year in its cycles. -/
theorem isLeap_split (a : Int) {b c d : Int} (hb : 0 ≤ b ∧ b ≤ 3) (hc : 0 ≤ c ∧ c ≤ 24)
    (hd : 0 ≤ d ∧ d ≤ 3) :
    isLeap (400 * a + 100 * b + 4 * c + d + 1) = (d == 3 && (c != 24 || b == 3)) := by
  unfold isLeap
  rw [Bool.eq_iff_iff]
  simp only [Bool.and_eq_true, Bool.or_eq_true, beq_iff_eq, bne_iff_ne]
  omega

/-- The days before a month that was found from a day. -/
theorem snd_monthOf (leap : Bool) (n : Int) :
    (monthOf leap n).2 = daysBeforeMonth (monthOf leap n).1 + leapShift leap (monthOf leap n).1 := by
  unfold monthOf
  dsimp only
  split <;> rfl

/-- The last day of a leap year by its place in the cycles. -/
theorem ordinal_lastOfLeap (a : Int) {b c : Int} (hb : 0 ≤ b ∧ b ≤ 3) (hc : 0 ≤ c ∧ c ≤ 24)
    (leap : c ≠ 24 ∨ b = 3) :
    ordinal ⟨400 * a + 100 * b + 4 * c + 3 + 1, 12, 31⟩ =
      146097 * a + 36524 * b + 1461 * c + 365 * 4 + 1 := by
  have isLeap : isLeap (400 * a + 100 * b + 4 * c + 3 + 1) = true := by
    rw [isLeap_split a hb hc (by omega)]
    simpa using leap
  have before : daysBeforeMonth 12 + leapShift true 12 = 335 := by decide
  unfold ordinal
  dsimp only
  rw [isLeap, before, daysBeforeYear_split a hb hc (by omega)]
  omega

/-- `date.fromordinal` undoes `date.toordinal`, and stays within the year it names. -/
theorem ordinal_civil (n : Int) : ordinal (civil n) = n ∧
    daysBeforeYear (civil n).year < n ∧ n ≤ daysBeforeYear (civil n).year + 366 := by
  unfold civil
  dsimp only
  generalize ha : (n - 1) / 146097 = a
  generalize hb : (n - 1) % 146097 / 36524 = b
  generalize hc : (n - 1) % 146097 % 36524 / 1461 = c
  generalize hd : (n - 1) % 146097 % 36524 % 1461 / 365 = d
  generalize hr : (n - 1) % 146097 % 36524 % 1461 % 365 = r
  have whole : n = 146097 * a + 36524 * b + 1461 * c + 365 * d + r + 1 := by omega
  have boundB : 0 ≤ b ∧ b ≤ 4 := by omega
  have boundC : 0 ≤ c ∧ c ≤ 24 := by omega
  have boundD : 0 ≤ d ∧ d ≤ 4 := by omega
  have boundR : 0 ≤ r ∧ r < 365 := by omega
  split_ifs with last
  · -- both are December 31st of the last leap year of their cycle
    dsimp only
    rcases last with rfl | rfl
    · have place : 400 * a + 100 * b + 4 * c + 4 + 1 - 1 = 400 * a + 100 * b + 4 * c + 3 + 1 := by
        ring
      rw [place, daysBeforeYear_split a (by omega) boundC (by omega)]
      exact ⟨(ordinal_lastOfLeap a (by omega) boundC (by omega)).trans (by omega), by omega,
        by omega⟩
    · have place : 400 * a + 100 * 4 + 4 * c + d + 1 - 1 =
          400 * a + 100 * 3 + 4 * 24 + 3 + 1 := by omega
      rw [place, daysBeforeYear_split a (by omega) (by omega) (by omega)]
      exact ⟨(ordinal_lastOfLeap a (by omega) (by omega) (Or.inr rfl)).trans (by omega), by omega,
        by omega⟩
  · have boundB' : 0 ≤ b ∧ b ≤ 3 := by omega
    have boundD' : 0 ≤ d ∧ d ≤ 3 := by omega
    unfold ordinal
    dsimp only
    rw [daysBeforeYear_split a boundB' boundC boundD', isLeap_split a boundB' boundC boundD',
      ← snd_monthOf]
    omega

/-! ## The 400-year cycle -/

/-- The days of 400 years. -/
def cycle : Int := 146097

/-- The leap rule repeats every 400 years. -/
theorem isLeap_add (year : Int) : isLeap (year + 400) = isLeap year := by
  unfold isLeap
  rw [Bool.eq_iff_iff]
  simp only [Bool.and_eq_true, Bool.or_eq_true, beq_iff_eq, bne_iff_ne]
  omega

/-- The months repeat every 400 years. -/
theorem monthLength_add (year month : Int) :
    monthLength (year + 400) month = monthLength year month := by
  unfold monthLength
  rw [isLeap_add]

/-- A cycle later it is the same day of the year. -/
theorem civil_add (n : Int) :
    civil (n + cycle) = ⟨(civil n).year + 400, (civil n).month, (civil n).day⟩ := by
  have quotient : (n + cycle - 1) / 146097 = (n - 1) / 146097 + 1 := by
    unfold cycle
    omega
  have remainder : (n + cycle - 1) % 146097 = (n - 1) % 146097 := by
    unfold cycle
    omega
  unfold civil
  dsimp only
  rw [quotient, remainder]
  split
  · simp only [Civil.mk.injEq, and_self, and_true]
    ring
  · simp only [Civil.mk.injEq, and_self, and_true]
    ring

/-- A cycle is a whole number of weeks. -/
theorem weekday_add (n : Int) : weekday (n + cycle) = weekday n := by
  unfold weekday cycle
  omega

/-- What is the same a cycle later is the same at the day of any cycle. -/
theorem of_cycle {P : Int → Prop} (add : ∀ n, P (n + cycle) ↔ P n) (n : Int) (k : Int) :
    P (n + cycle * k) ↔ P n := by
  induction k using Int.induction_on with
  | zero => simp
  | succ k ih => rw [show n + cycle * (k + 1) = n + cycle * k + cycle by ring, add, ih]
  | pred k ih => rw [← ih, ← add, show n + cycle * (-k - 1) + cycle = n + cycle * -k by ring]

/-- Any cycle has a day that stands for `n`. -/
theorem exists_in_cycle (n start : Int) :
    ∃ k, start ≤ n + cycle * k ∧ n + cycle * k < start + cycle := by
  refine ⟨(start - n + cycle - 1) / cycle, ?_⟩
  unfold cycle
  omega

/-! ## Dates of the calendar -/

/-- The days of a month in a leap or in a common year. -/
def monthDays (leap : Bool) (month : Int) : Int :=
  if month = 2 then (if leap then 29 else 28)
  else if month = 4 ∨ month = 6 ∨ month = 9 ∨ month = 11 then 30
  else 31

/-- A month of the year and a day of that month. -/
structure Civil.Valid (c : Civil) : Prop where
  month : 1 ≤ c.month ∧ c.month ≤ 12
  day : 1 ≤ c.day ∧ c.day ≤ monthLength c.year c.month

/-- The length of a month depends on the leap rule only. -/
theorem monthLength_eq (year month : Int) :
    monthLength year month = monthDays (isLeap year) month := rfl

/-- In a leap year every month has 29 days. -/
theorem monthDays_leap (month : Int) : 29 ≤ monthDays true month := by
  simp only [monthDays, if_true]
  split_ifs <;> omega

/-- The month that holds a day of the year, and the day's place in it. -/
theorem monthOf_valid (leap : Bool) {n : Int} (inside : 0 ≤ n ∧ n < 365) :
    (1 ≤ (monthOf leap n).1 ∧ (monthOf leap n).1 ≤ 12) ∧
      1 ≤ n - (monthOf leap n).2 + 1 ∧
      n - (monthOf leap n).2 + 1 ≤ monthDays leap (monthOf leap n).1 := by
  have each : ∀ k : Fin 365, (1 ≤ (monthOf leap k).1 ∧ (monthOf leap k).1 ≤ 12) ∧
      1 ≤ (k : Int) - (monthOf leap k).2 + 1 ∧
      (k : Int) - (monthOf leap k).2 + 1 ≤ monthDays leap (monthOf leap k).1 := by
    revert leap
    decide +kernel
  have own := each ⟨n.toNat, by omega⟩
  simp only [Int.toNat_of_nonneg inside.1] at own
  exact own

/-- A date that is computed from a day exists. -/
theorem civil_valid (n : Int) : (civil n).Valid := by
  unfold civil
  dsimp only
  generalize hb : (n - 1) % 146097 / 36524 = b
  generalize hc : (n - 1) % 146097 % 36524 / 1461 = c
  generalize hd : (n - 1) % 146097 % 36524 % 1461 / 365 = d
  split_ifs with last
  · -- December 31st
    exact ⟨⟨(by decide : (1 : Int) ≤ 12), le_rfl⟩, (by decide : (1 : Int) ≤ 31), le_rfl⟩
  · have inside := monthOf_valid (d == 3 && (c != 24 || b == 3))
      (n := (n - 1) % 146097 % 36524 % 1461 % 365) (by omega)
    refine ⟨inside.1, ?_⟩
    rw [monthLength_eq]
    dsimp only
    rw [isLeap_split _ (by omega) (by omega) (by omega)]
    exact inside.2

/-- The days of the earlier months and of a month itself. -/
theorem daysBeforeMonth_le (leap : Bool) {month month' : Int} (low : 1 ≤ month)
    (before : month < month') (high : month' ≤ 12) :
    daysBeforeMonth month + leapShift leap month + monthDays leap month ≤
      daysBeforeMonth month' + leapShift leap month' := by
  have each : ∀ leap, ∀ m m' : Fin 13, 1 ≤ (m : Int) → (m : Int) < m' →
      daysBeforeMonth m + leapShift leap m + monthDays leap m ≤
        daysBeforeMonth m' + leapShift leap m' := by decide +kernel
  have own := each leap ⟨month.toNat, by omega⟩ ⟨month'.toNat, by omega⟩
  simp only [Int.toNat_of_nonneg (by omega : (0 : Int) ≤ month),
    Int.toNat_of_nonneg (by omega : (0 : Int) ≤ month')] at own
  exact own low before

/-- A valid date lies after the days before its year, and not after those of its year. -/
theorem Civil.Valid.ordinal_bounds {c : Civil} (valid : c.Valid) :
    daysBeforeYear c.year < ordinal c ∧ ordinal c ≤ daysBeforeYear (c.year + 1) := by
  have first : 0 ≤ daysBeforeMonth c.month + leapShift (isLeap c.year) c.month ∧
      daysBeforeMonth c.month + leapShift (isLeap c.year) c.month +
        monthDays (isLeap c.year) c.month ≤ 365 + (if isLeap c.year then 1 else 0) := by
    have each : ∀ leap : Bool, ∀ m : Fin 13, 1 ≤ (m : Int) →
        0 ≤ daysBeforeMonth m + leapShift leap m ∧
          daysBeforeMonth m + leapShift leap m + monthDays leap m ≤
            365 + (if leap then 1 else 0) := by decide +kernel
    have month := valid.month
    have own := each (isLeap c.year) ⟨c.month.toNat, by omega⟩
    simp only [Int.toNat_of_nonneg (by omega : (0 : Int) ≤ c.month)] at own
    exact own month.1
  have year : daysBeforeYear (c.year + 1) =
      daysBeforeYear c.year + 365 + (if isLeap c.year then 1 else 0) := by
    unfold daysBeforeYear isLeap
    simp only [Bool.and_eq_true, Bool.or_eq_true, beq_iff_eq, bne_iff_ne]
    split <;> omega
  have day := valid.day
  rw [monthLength_eq] at day
  unfold ordinal
  omega

theorem daysBeforeYear_mono {year year' : Int} (le : year ≤ year') :
    daysBeforeYear year ≤ daysBeforeYear year' := by
  have fourth : (year - 1) / 4 ≤ (year' - 1) / 4 := Int.ediv_le_ediv (by decide) (by omega)
  have cycles : (year - 1) / 400 ≤ (year' - 1) / 400 := Int.ediv_le_ediv (by decide) (by omega)
  have centuries : (year' - 1) / 100 ≤ (year - 1) / 100 + (year' - year) := by omega
  unfold daysBeforeYear
  omega

/-- `date.toordinal()` numbers different dates differently. -/
theorem Civil.Valid.eq_of_ordinal {c c' : Civil} (valid : c.Valid) (valid' : c'.Valid)
    (same : ordinal c = ordinal c') : c = c' := by
  have bounds := valid.ordinal_bounds
  have bounds' := valid'.ordinal_bounds
  have year : c.year = c'.year := by
    rcases lt_trichotomy c.year c'.year with before | equal | after
    · have := daysBeforeYear_mono (by omega : c.year + 1 ≤ c'.year)
      omega
    · exact equal
    · have := daysBeforeYear_mono (by omega : c'.year + 1 ≤ c.year)
      omega
  have day := valid.day
  have day' := valid'.day
  have month : c.month = c'.month := by
    have low := valid.month
    have low' := valid'.month
    rw [monthLength_eq] at day day'
    unfold ordinal at same
    rw [year] at same day
    rcases lt_trichotomy c.month c'.month with before | equal | after
    · have := daysBeforeMonth_le (isLeap c'.year) low.1 before low'.2
      omega
    · exact equal
    · have := daysBeforeMonth_le (isLeap c'.year) low'.1 after low.2
      omega
  obtain ⟨y, m, d⟩ := c
  obtain ⟨y', m', d'⟩ := c'
  dsimp only at year month
  subst year month
  unfold ordinal at same
  dsimp only at same
  rw [show d = d' by omega]

/-- `date.toordinal` undoes `date.fromordinal`. -/
theorem Civil.Valid.civil_ordinal {c : Civil} (valid : c.Valid) : civil (ordinal c) = c :=
  (civil_valid _).eq_of_ordinal valid (ordinal_civil _).1

/-- Each day of each kind of month falls on every weekday. -/
theorem exists_date (leap : Bool) {month day w : Int} (inMonths : 1 ≤ month ∧ month ≤ 12)
    (inMonth : 1 ≤ day ∧ day ≤ monthDays leap month) (inWeek : 0 ≤ w ∧ w ≤ 6) :
    ∃ n, (civil n).month = month ∧ (civil n).day = day ∧ isLeap (civil n).year = leap ∧
      weekday n = w := by
  -- the years 2001 to 2028 begin each month of each kind on every weekday
  have each : ∀ leap : Bool, ∀ m : Fin 13, ∀ v : Fin 7, 1 ≤ (m : Int) → ∃ y : Fin 28,
      isLeap (2001 + y) = leap ∧ weekday (ordinal ⟨2001 + y, m, 1⟩) = v := by decide +kernel
  obtain ⟨y, kind, first⟩ := each leap ⟨month.toNat, by omega⟩
    ⟨((w - (day - 1)) % 7).toNat, by omega⟩ (by dsimp only; omega)
  simp only [Int.toNat_of_nonneg (by omega : (0 : Int) ≤ month),
    Int.toNat_of_nonneg (by omega : (0 : Int) ≤ (w - (day - 1)) % 7)] at first
  have valid : Civil.Valid ⟨2001 + y, month, day⟩ :=
    ⟨inMonths, by rw [monthLength_eq, kind]; exact inMonth⟩
  refine ⟨ordinal ⟨2001 + y, month, day⟩, ?_⟩
  rw [valid.civil_ordinal]
  refine ⟨rfl, rfl, kind, ?_⟩
  unfold weekday ordinal at *
  dsimp only at *
  omega

end Calendar
