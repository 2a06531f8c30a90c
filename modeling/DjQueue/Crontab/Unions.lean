import DjQueue.Crontab.Leading

/-!
# What a search raises, and which run of a union is taken

A search raises nothing but what arithmetic raises at the end of the years, so that the
`ValueError` that `_find_run` catches says that a schedule has no run in its window.
-/

namespace DjQueue.Crontab

open Enumeration

/-! ## Errors -/

section Errors

variable {s : Schedule} {t : Timeline} {d : Direction} {skip : Bool} {base : Moment} {e : PyError}

theorem error_of_checkedWall {wall : Int} (h : checkedWall wall = .error e) : e = outOfRange := by
  unfold checkedWall at h
  split at h
  · cases h
  · exact (Except.error.inj h).symm

/-- An instant whose reading is outside the years. -/
theorem error_of_fromUtc {tz : TzInfo} {instant : Int} (h : fromUtc tz instant = .error e) :
    e = outOfRange := by
  unfold fromUtc at h
  cases checked : checkedWall (tz.wallAt instant) with
  | ok wall =>
      rw [checked] at h
      cases h
  | error e' =>
      rw [checked] at h
      cases h
      exact error_of_checkedWall checked

theorem error_of_foldCandidate {tz : TzInfo} {wall : Int} {fold : Bool}
    (h : foldCandidate tz wall fold = .error e) : e = outOfRange := by
  rcases bind_eq_error h with there | ⟨instant, -, h⟩
  · exact error_of_checkedWall there
  · rcases bind_eq_error h with here | ⟨back, -, h⟩
    · exact error_of_fromUtc here
    · cases h

theorem error_of_searchWall {wall : Int} (h : searchWall t d wall = .error e) : e = outOfRange := by
  unfold searchWall at h
  cases found : timelineCandidates t.localTimezone d wall with
  | ok l =>
      rw [found] at h
      cases h
  | error e' =>
      rw [found] at h
      cases h
      unfold timelineCandidates at found
      split at found
      · cases found
      · rcases bind_eq_error found with first | ⟨l, -, found⟩
        · exact error_of_foldCandidate first
        · rcases bind_eq_error found with second | ⟨l', -, found⟩
          · exact error_of_foldCandidate second
          · cases found

theorem error_of_searchDates (fields : s.ClockFields) (h : searchDates s t d skip = .error e) :
    e = outOfRange := by
  refine error_of_walk (· = outOfRange) ?_ ?_ h
  · intro date e failed
    rw [searchDate_eq fields] at failed
    exact error_of_firstOver
      (fun wall _ e failed => error_of_searchWall failed) failed
  · intro date e failed
    unfold addDays at failed
    split at failed
    · cases failed
    · exact (Except.error.inj failed).symm

theorem error_of_timelineBase (h : timelineBase s base = .error e) : e = outOfRange := by
  unfold timelineBase at h
  split at h
  · rcases bind_eq_error h with there | ⟨instant, -, h⟩
    · exact error_of_checkedWall there
    · rcases bind_eq_error h with here | ⟨localBase, -, h⟩
      · exact error_of_fromUtc here
      · cases h
  · split at h
    · rcases bind_eq_error h with there | ⟨instant, -, h⟩
      · exact error_of_checkedWall there
      · rcases bind_eq_error h with here | ⟨localBase, -, h⟩
        · exact error_of_fromUtc here
        · cases h
    · cases h

theorem error_of_restoreTimeline {candidate : Int} (h : restoreTimeline t candidate = .error e) :
    e = outOfRange := by
  unfold restoreTimeline at h
  split at h
  · exact error_of_fromUtc h
  · rcases bind_eq_error h with here | ⟨moment, -, h⟩
    · exact error_of_fromUtc here
    · cases h
  · cases h

/-- A run that is found was found on the timeline of the base. -/
theorem of_findRunForSchedule {run : Moment} (h : findRunForSchedule s base d = .ok run) :
    ∃ t u, timelineBase s base = .ok t ∧
      searchDates s t d (skipByWallTime t.localTimezone) = .ok (some u) ∧
      restoreTimeline t u = .ok run := by
  obtain ⟨t, based, h⟩ := bind_eq_ok h
  obtain ⟨found, searched, h⟩ := bind_eq_ok h
  cases found with
  | none => cases h
  | some u => exact ⟨t, u, based, searched, h⟩

/-- The error that `_find_run` catches. -/
theorem of_findRunForSchedule_valueError (fields : s.ClockFields)
    (h : findRunForSchedule s base d = .error e) (caught : isValueError e = true) :
    ∃ t, timelineBase s base = .ok t ∧
      searchDates s t d (skipByWallTime t.localTimezone) = .ok none := by
  have never (range : e = outOfRange) : False := by
    rw [range] at caught
    cases caught
  rcases bind_eq_error h with failed | ⟨t, based, h⟩
  · exact (never (error_of_timelineBase failed)).elim
  · rcases bind_eq_error h with failed | ⟨found, searched, h⟩
    · exact (never (error_of_searchDates fields failed)).elim
    · cases found with
      | none => exact ⟨t, based, searched⟩
      | some u => exact (never (error_of_restoreTimeline h)).elim

end Errors

/-! ## Unions -/

section Unions

variable {schedules : List Schedule} {base : Moment} {d : Direction} {runs : List Moment}

/-- The runs of a union, schedule by schedule. -/
theorem of_candidateRuns (h : candidateRuns base d schedules = .ok runs) :
    (∀ run ∈ runs, ∃ s ∈ schedules, findRunForSchedule s base d = .ok run) ∧
      ∀ s ∈ schedules, (∃ run ∈ runs, findRunForSchedule s base d = .ok run) ∨
        ∃ e, findRunForSchedule s base d = .error e ∧ isValueError e = true := by
  induction schedules generalizing runs with
  | nil =>
      cases h
      exact ⟨fun run mem => absurd mem List.not_mem_nil, fun s mem => absurd mem List.not_mem_nil⟩
  | cons s rest ih =>
      unfold candidateRuns at h
      cases found : findRunForSchedule s base d with
      | ok run =>
          rw [found] at h
          dsimp only at h
          cases others : candidateRuns base d rest with
          | error e =>
              rw [others] at h
              cases h
          | ok later =>
              rw [others] at h
              cases h
              obtain ⟨from_, each⟩ := ih others
              refine ⟨?_, ?_⟩
              · intro run' mem
                rcases List.mem_cons.mp mem with rfl | mem
                · exact ⟨s, List.mem_cons_self, found⟩
                · obtain ⟨s', inside, found'⟩ := from_ run' mem
                  exact ⟨s', List.mem_cons_of_mem _ inside, found'⟩
              · intro s' mem
                rcases List.mem_cons.mp mem with rfl | mem
                · exact Or.inl ⟨run, List.mem_cons_self, found⟩
                · rcases each s' mem with ⟨run', inside, found'⟩ | failed
                  · exact Or.inl ⟨run', List.mem_cons_of_mem _ inside, found'⟩
                  · exact Or.inr failed
      | error e =>
          rw [found] at h
          dsimp only at h
          cases caught : isValueError e with
          | false =>
              rw [caught] at h
              cases h
          | true =>
              rw [caught, if_pos rfl] at h
              obtain ⟨from_, each⟩ := ih h
              refine ⟨?_, ?_⟩
              · intro run mem
                obtain ⟨s', inside, found'⟩ := from_ run mem
                exact ⟨s', List.mem_cons_of_mem _ inside, found'⟩
              · intro s' mem
                rcases List.mem_cons.mp mem with rfl | mem
                · exact Or.inr ⟨e, found, caught⟩
                · exact each s' mem

/-- The best run is before every earlier one in the list and not after any later one. -/
theorem split_of_foldl_better (m : Moment) (rest : List Moment) :
    ∃ before after, m :: rest = before ++ rest.foldl (better d) m :: after ∧
      (∀ x ∈ before, d.Before (rest.foldl (better d) m).wall x.wall) ∧
      ∀ x ∈ after, ¬ d.Before x.wall (rest.foldl (better d) m).wall := by
  induction rest generalizing m with
  | nil =>
      exact ⟨[], [], rfl, fun x mem => absurd mem List.not_mem_nil,
        fun x mem => absurd mem List.not_mem_nil⟩
  | cons x rest ih =>
      rw [List.foldl_cons]
      by_cases ahead : d.Before x.wall m.wall
      · rw [better, if_pos ahead]
        obtain ⟨before, after, eq, earlier, later⟩ := ih x
        generalize rest.foldl (better d) x = chosen at *
        refine ⟨m :: before, after, by rw [eq]; rfl, ?_, later⟩
        intro y mem
        rcases List.mem_cons.mp mem with rfl | mem
        · cases before with
          | nil =>
              rw [← (List.cons.inj eq).1]
              exact ahead
          | cons z before =>
              have same : x = z := (List.cons.inj eq).1
              exact (earlier z List.mem_cons_self).trans (same ▸ ahead)
        · exact earlier y mem
      · rw [better, if_neg ahead]
        obtain ⟨before, after, eq, earlier, later⟩ := ih m
        generalize rest.foldl (better d) m = chosen at *
        cases before with
        | nil =>
            obtain ⟨rfl, rfl⟩ := List.cons.inj eq
            refine ⟨[], x :: rest, rfl, fun y mem => absurd mem List.not_mem_nil, ?_⟩
            intro y mem
            rcases List.mem_cons.mp mem with rfl | mem
            · exact ahead
            · exact later y mem
        | cons z before =>
            obtain ⟨rfl, rfl⟩ := List.cons.inj eq
            refine ⟨m :: x :: before, after, rfl, ?_, later⟩
            intro y mem
            have first := earlier m List.mem_cons_self
            rcases List.mem_cons.mp mem with rfl | mem
            · exact first
            · rcases List.mem_cons.mp mem with rfl | mem
              · unfold Direction.Before at ahead first ⊢
                omega
              · exact earlier y (List.mem_cons_of_mem _ mem)

/-- The best is the first of those no other is better than. -/
theorem split_of_best {run : Moment} (h : best d runs = some run) :
    ∃ before after, runs = before ++ run :: after ∧ (∀ x ∈ before, d.Before run.wall x.wall) ∧
      ∀ x ∈ after, ¬ d.Before x.wall run.wall := by
  cases runs with
  | nil => cases h
  | cons m rest =>
      cases h
      exact split_of_foldl_better m rest

theorem best_spec {run : Moment} (h : best d runs = some run) :
    run ∈ runs ∧ ∀ x ∈ runs, ¬ d.Before x.wall run.wall := by
  obtain ⟨before, after, rfl, earlier, later⟩ := split_of_best h
  refine ⟨by simp, ?_⟩
  intro x mem
  rcases List.mem_append.mp mem with left | right
  · exact fun behind => Direction.Before.irrefl ((earlier x left).trans behind)
  · rcases List.mem_cons.mp right with rfl | right
    · exact Direction.Before.irrefl
    · exact later x right

theorem findRun_of_best {run : Moment} (candidates : candidateRuns base d schedules = .ok runs)
    (chosen : best d runs = some run) : findRun schedules base d = .ok run := by
  unfold findRun
  rw [candidates]
  simp only [bind, Except.bind]
  rw [chosen]
  rfl

/-- The run of a union is the best of its schedules. -/
theorem of_findRun {run : Moment} (h : findRun schedules base d = .ok run) :
    ∃ runs, candidateRuns base d schedules = .ok runs ∧ best d runs = some run := by
  obtain ⟨runs, candidates, h⟩ := bind_eq_ok h
  refine ⟨runs, candidates, ?_⟩
  cases chosen : best d runs with
  | none =>
      rw [chosen] at h
      cases h
  | some run' =>
      rw [chosen] at h
      cases h
      rfl

end Unions

end DjQueue.Crontab
