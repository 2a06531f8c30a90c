import DjQueue.Crontab.Window

/-!
# What a search finds

A run of a schedule is an instant past the base whose reading the schedule matches, with a date in
the window.  The search finds the run that leads: the first by its reading, and the first instant
among those that show the same reading.
-/

namespace DjQueue.Crontab

open Enumeration

/-- The reading of the local clock at an instant. -/
def Timeline.wallAt (t : Timeline) (instant : Int) : Int :=
  match t.localTimezone with
  | none => instant
  | some tz => tz.wallAt instant

/-- A reading of the schedule behind the base, inside the window of dates. -/
structure Run (s : Schedule) (t : Timeline) (d : Direction) (instant : Int) : Prop where
  past : d.Before t.base instant
  reading : s.MatchesWall (t.wallAt instant)
  window : InWindow t d (dateOf (t.wallAt instant))

/-- `u` comes before `v` on the local clock: by its reading, or by itself at the same reading. -/
def Timeline.Ahead (t : Timeline) (d : Direction) (u v : Int) : Prop :=
  d.Before (t.wallAt u) (t.wallAt v) ∨ t.wallAt u = t.wallAt v ∧ d.Before u v

/-- A run no other comes before. -/
structure Leads (s : Schedule) (t : Timeline) (d : Direction) (instant : Int) : Prop where
  run : Run s t d instant
  first : ∀ v, Run s t d v → v = instant ∨ t.Ahead d instant v

section Instants

variable {tz : TzInfo} {localTimezone : Option TzInfo} {d : Direction} {wall u : Int} {fold : Bool}

/-- A reading of whole seconds comes back to the second only as itself. -/
theorem sameLocalTime_iff (tz : TzInfo) (fold : Bool) (whole : microsecondOf wall = 0) :
    sameLocalTime (tz.wallAt (wall - tz.utcoffset wall fold)) wall = true ↔
      tz.wallAt (wall - tz.utcoffset wall fold) = wall := by
  have diff := tz.offset_diff_whole (wall - tz.utcoffset wall fold) wall fold
  rw [sameLocalTime, beq_iff_eq]
  simp only [TzInfo.wallAt, microsecondOf, secondLength_eq] at *
  omega

/-- A candidate is an instant that shows the reading with this fold. -/
theorem mem_foldCandidate (whole : microsecondOf wall = 0) {l : List Int}
    (h : foldCandidate tz wall fold = .ok l) :
    u ∈ l ↔ u = wall - tz.utcoffset wall fold ∧ tz.wallAt u = wall := by
  obtain ⟨instant, there, h⟩ := bind_eq_ok h
  obtain ⟨back, here, h⟩ := bind_eq_ok h
  obtain ⟨rfl, -⟩ := of_checkedWall there
  rw [of_fromUtc here] at h
  cases h
  dsimp only
  have same := sameLocalTime_iff tz fold whole
  split
  · rw [List.mem_singleton]
    constructor
    · rintro rfl
      exact ⟨rfl, same.mp ‹_›⟩
    · exact And.left
  · constructor
    · intro mem
      cases mem
    · rintro ⟨rfl, shown⟩
      exact absurd (same.mpr shown) ‹_›

/-- The candidates of a reading are the instants that show it. -/
theorem mem_timelineCandidates (whole : microsecondOf wall = 0) {l : List Int} (t : Timeline)
    (h : timelineCandidates t.localTimezone d wall = .ok l) : u ∈ l ↔ t.wallAt u = wall := by
  unfold Timeline.wallAt
  unfold timelineCandidates at h
  cases zone : t.localTimezone with
  | none =>
      rw [zone] at h
      cases h
      exact List.mem_singleton
  | some tz =>
      rw [zone] at h
      obtain ⟨first, hf, h⟩ := bind_eq_ok h
      obtain ⟨second, hs, h⟩ := bind_eq_ok h
      cases h
      rw [Direction.mem_ordered, IntSet.mem_members_ofList, List.mem_append,
        mem_foldCandidate whole hf, mem_foldCandidate whole hs]
      constructor
      · rintro (⟨-, shown⟩ | ⟨-, shown⟩) <;> exact shown
      · intro (shown : tz.wallAt u = wall)
        -- the instant is the one its own fold stands for
        have round := tz.utcoffset_wallAt u
        rw [shown] at round
        have back : u = wall - tz.utcoffset wall (tz.foldAt u) := by
          rw [round, ← shown, TzInfo.wallAt]
          omega
        cases fold : tz.foldAt u with
        | false => exact Or.inl ⟨fold ▸ back, shown⟩
        | true => exact Or.inr ⟨fold ▸ back, shown⟩

/-- The candidates of a reading are in the order of the search. -/
theorem pairwise_timelineCandidates {l : List Int}
    (h : timelineCandidates localTimezone d wall = .ok l) : l.Pairwise d.Before := by
  unfold timelineCandidates at h
  cases localTimezone with
  | none =>
      cases h
      exact List.pairwise_singleton _ _
  | some tz =>
      obtain ⟨first, hf, h⟩ := bind_eq_ok h
      obtain ⟨second, hs, h⟩ := bind_eq_ok h
      cases h
      exact d.pairwise_ordered _

end Instants

section Search

variable {s : Schedule} {t : Timeline} {d : Direction} {skip : Bool} {wall u v : Int}

/-- A reading without a candidate behind the base. -/
theorem of_searchWall_none (whole : microsecondOf wall = 0) (h : searchWall t d wall = .ok none)
    (shown : t.wallAt u = wall) : ¬ d.Before t.base u := by
  unfold searchWall at h
  cases found : timelineCandidates t.localTimezone d wall with
  | error e =>
      rw [found] at h
      cases h
  | ok l =>
      rw [found] at h
      have nowhere := List.find?_eq_none.mp (Except.ok.inj h) u
        ((mem_timelineCandidates whole t found).mpr shown)
      simpa using nowhere

/-- The candidate of a reading is the first one behind the base. -/
theorem of_searchWall_some (whole : microsecondOf wall = 0) (h : searchWall t d wall = .ok (some u)) :
    t.wallAt u = wall ∧ d.Before t.base u ∧
      ∀ v, t.wallAt v = wall → d.Before t.base v → v = u ∨ d.Before u v := by
  unfold searchWall at h
  cases found : timelineCandidates t.localTimezone d wall with
  | error e =>
      rw [found] at h
      cases h
  | ok l =>
      rw [found] at h
      obtain ⟨past, before, after, rfl, early⟩ := List.find?_eq_some_iff_append.mp (Except.ok.inj h)
      have shown := (mem_timelineCandidates whole t found (u := u)).mp (by simp)
      refine ⟨shown, of_decide_eq_true past, ?_⟩
      intro v shown' past'
      have inside := (mem_timelineCandidates whole t found).mpr shown'
      have order := List.pairwise_append.mp (pairwise_timelineCandidates found)
      rcases List.mem_append.mp inside with left | right
      · have := early v left
        simp [past'] at this
      · rcases List.mem_cons.mp right with rfl | later
        · exact Or.inl rfl
        · exact Or.inr ((List.pairwise_cons.mp order.2.1).1 v later)

/-- Skipping by wall time passes over no instant past the base: the local clock is a shift of the
timeline. -/
structure Skips (t : Timeline) (d : Direction) (skip : Bool) : Prop where
  localBase : t.localBase = t.wallAt t.base
  shift : skip = true → ∃ offset, ∀ u, t.wallAt u = u + offset

/-- A reading that is skipped is not behind the base. -/
theorem not_past_of_skipped (skips : Skips t d skip)
    (skipped : keepsWall t d skip (t.wallAt u) = false) :
    ¬ d.Before t.base u := by
  cases skip with
  | false => simp [keepsWall, keepsHour, keepsMinute] at skipped
  | true =>
      obtain ⟨offset, shift⟩ := skips.shift rfl
      have base := skips.localBase
      rw [shift] at base skipped
      have parts := wallOf_parts (u + offset)
      have parts' := wallOf_parts t.localBase
      have clock := clockTime (u + offset)
      have clock' := clockTime t.localBase
      have micro : 0 ≤ microsecondOf (u + offset) ∧ microsecondOf (u + offset) < secondLength := by
        simp only [microsecondOf, secondLength_eq]
        omega
      have micro' : 0 ≤ microsecondOf t.localBase ∧ microsecondOf t.localBase < secondLength := by
        simp only [microsecondOf, secondLength_eq]
        omega
      obtain ⟨hh, hm, hs⟩ := clock
      obtain ⟨hh', hm', hs'⟩ := clock'
      simp only [keepsWall, keepsHour, keepsMinute, Bool.true_and, Bool.and_eq_false_iff,
        Bool.not_eq_false', Bool.and_eq_true, decide_eq_true_eq] at skipped
      simp only [wallOf, midnight, dayLength_eq, hourLength_eq, minuteLength_eq, secondLength_eq] at *
      intro past
      cases d <;> simp only [Direction.Before, Direction.sign] at past skipped <;> omega

/-- What the search finds leads. -/
theorem leads_of_searchDates (fields : s.ClockFields) (skips : Skips t d skip)
    (h : searchDates s t d skip = .ok (some u)) : Leads s t d u := by
  have searched := of_searchDates fields h
  have order := (pairwise_windowReadings fields (t := t) (d := d)).filter (keepsWall t d skip)
  obtain ⟨wall, inside, found, rest⟩ := of_firstOver_eq_some order searched
  obtain ⟨inside, -⟩ := List.mem_filter.mp inside
  obtain ⟨reading, window⟩ := (mem_windowReadings fields).mp inside
  obtain ⟨rfl, past, first⟩ := of_searchWall_some reading.1 found
  refine ⟨⟨past, reading, window⟩, ?_⟩
  intro v run
  have kept : keepsWall t d skip (t.wallAt v) = true := by
    rw [← Bool.not_eq_false]
    exact fun skipped => not_past_of_skipped skips skipped run.past
  have mem := List.mem_filter.mpr ⟨(mem_windowReadings fields).mpr ⟨run.reading, run.window⟩, kept⟩
  rcases rest _ mem with none | same | later
  · exact absurd run.past (of_searchWall_none run.reading.1 none rfl)
  · rcases first v same run.past with eq | later
    · exact Or.inl eq
    · exact Or.inr (Or.inr ⟨same.symm, later⟩)
  · exact Or.inr (Or.inl later)

/-- A search that comes back with nothing has no run to find. -/
theorem no_run_of_searchDates (fields : s.ClockFields) (skips : Skips t d skip)
    (h : searchDates s t d skip = .ok none) (v : Int) : ¬ Run s t d v := by
  intro run
  have kept : keepsWall t d skip (t.wallAt v) = true := by
    rw [← Bool.not_eq_false]
    exact fun skipped => not_past_of_skipped skips skipped run.past
  have mem := List.mem_filter.mpr ⟨(mem_windowReadings fields).mpr ⟨run.reading, run.window⟩, kept⟩
  have nowhere := firstOver_eq_none.mp (of_searchDates fields h) _ mem
  exact of_searchWall_none run.reading.1 nowhere rfl run.past

theorem Leads.unique (first : Leads s t d u) (second : Leads s t d v) : u = v := by
  rcases first.first v second.run with rfl | ahead
  · rfl
  · rcases second.first u first.run with rfl | behind
    · rfl
    · rcases ahead with before | ⟨same, before⟩ <;> rcases behind with before' | ⟨same', before'⟩
      · exact absurd (before.trans before') Direction.Before.irrefl
      · exact absurd (same' ▸ before) Direction.Before.irrefl
      · exact absurd (same ▸ before') Direction.Before.irrefl
      · exact absurd (before.trans before') Direction.Before.irrefl

end Search

end DjQueue.Crontab
