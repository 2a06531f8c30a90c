import DjQueue.Crontab.FixedOffset

/-!
# Searches across offset transitions

In a zone whose clock is set back the order of its readings is not the order of time.  The search
takes the run that leads on the clock of its schedule, and among the schedules of a union the one
that reads least on the clock of the base; this is the first run in time exactly when it leads.
-/

namespace DjQueue.Crontab

open Enumeration

/-! ## Inside the years -/

/-- The search stays inside the years 1 to 9999: its dates do, with a margin for the offsets. -/
def SearchInRange (instant : Int) (d : Direction) : Prop :=
  DateInRange (dateOf instant - d.sign * 3) ∧
    DateInRange (dateOf instant + d.sign * (maxSearchDays + 3))

instance (instant : Int) (d : Direction) : Decidable (SearchInRange instant d) :=
  inferInstanceAs (Decidable (_ ∧ _))

/-- The timeline of a search from an aware base. -/
def awareTimeline (s : Schedule) (base : Moment) (tz : TzInfo) : Timeline :=
  ⟨base.instant, (s.timezone.getD tz).wallAt base.instant, some (s.timezone.getD tz), some tz⟩

/-- An offset moves a date by a day at most. -/
theorem dateOf_add (wall offset : Int) (bound : -dayLength < offset ∧ offset < dayLength) :
    dateOf wall - 1 ≤ dateOf (wall + offset) ∧ dateOf (wall + offset) ≤ dateOf wall + 1 := by
  simp only [dateOf, dayLength_eq] at *
  omega

section Range

variable {s : Schedule} {base : Moment} {tz : TzInfo} {d : Direction}

/-- Two days around the window are inside the years. -/
theorem inRange_of_near (s : Schedule) (tz : TzInfo) (range : SearchInRange base.instant d)
    {k : Nat} (small : k ≤ maxSearchDays)
    {date : Int} (near : windowDate (awareTimeline s base tz) d k - 2 ≤ date ∧
      date ≤ windowDate (awareTimeline s base tz) d k + 2) : DateInRange date := by
  have start := dateOf_add base.instant _ ((s.timezone.getD tz).offsetAt_bound base.instant)
  have localDate : dateOf (awareTimeline s base tz).localBase =
      dateOf (base.instant + (s.timezone.getD tz).offsetAt base.instant) := rfl
  unfold windowDate at near
  rw [localDate] at near
  unfold SearchInRange DateInRange at *
  cases d <;> simp only [Direction.sign] at * <;> omega

/-- Readings near the window are in the years of `datetime` -/
theorem checkedWall_near (s : Schedule) (tz : TzInfo) (range : SearchInRange base.instant d) {k : Nat}
    (small : k ≤ maxSearchDays) {wall : Int}
    (near : windowDate (awareTimeline s base tz) d k - 2 ≤ dateOf wall ∧
      dateOf wall ≤ windowDate (awareTimeline s base tz) d k + 2) :
    checkedWall wall = .ok wall :=
  checkedWall_ok (inRange_of_near s tz range small near)

/-- The readings of instants near the window are inside the years. -/
theorem fromUtc_near (s : Schedule) (tz : TzInfo) (range : SearchInRange base.instant d) {k : Nat}
    (small : k ≤ maxSearchDays)
    {instant : Int} (near : windowDate (awareTimeline s base tz) d k - 1 ≤ dateOf instant ∧
      dateOf instant ≤ windowDate (awareTimeline s base tz) d k + 1) (zone : TzInfo) :
    fromUtc zone instant = .ok ⟨zone.wallAt instant, zone.foldAt instant, some zone⟩ := by
  have shifted := dateOf_add instant _ (zone.offsetAt_bound instant)
  unfold fromUtc
  rw [checkedWall_near s tz range small (by rw [TzInfo.wallAt]; omega)]
  rfl

/-- The instants of readings on the window's dates are inside the years. -/
theorem toUtc_near (s : Schedule) (tz : TzInfo) (range : SearchInRange base.instant d) {k : Nat}
    (small : k ≤ maxSearchDays)
    {wall : Int} (on : dateOf wall = windowDate (awareTimeline s base tz) d k) (zone : TzInfo)
    (fold : Bool) : toUtc zone wall fold = .ok (wall - zone.utcoffset wall fold) ∧
      windowDate (awareTimeline s base tz) d k - 1 ≤ dateOf (wall - zone.utcoffset wall fold) ∧
      dateOf (wall - zone.utcoffset wall fold) ≤ windowDate (awareTimeline s base tz) d k + 1 := by
  have bound := zone.utcoffset_bound wall fold
  have shifted := dateOf_add wall (-zone.utcoffset wall fold) (by omega)
  rw [← Int.sub_eq_add_neg, on] at shifted
  exact ⟨checkedWall_near s tz range small (by omega), shifted⟩

/-- The search of a reading raises nothing. -/
theorem searchWall_ok (range : SearchInRange base.instant d) {k : Nat} (small : k ≤ maxSearchDays)
    {wall : Int} (on : dateOf wall = windowDate (awareTimeline s base tz) d k) :
    ∃ r, searchWall (awareTimeline s base tz) d wall = .ok r := by
  have candidate (fold : Bool) : ∃ l, foldCandidate (s.timezone.getD tz) wall fold = .ok l := by
    obtain ⟨there, near⟩ := toUtc_near s tz range small on (s.timezone.getD tz) fold
    unfold foldCandidate
    rw [there]
    exact ⟨_, by
      change (fromUtc _ _ >>= _) = _
      rw [fromUtc_near s tz range small near]
      rfl⟩
  obtain ⟨first, hf⟩ := candidate false
  obtain ⟨second, hs⟩ := candidate true
  have candidates : timelineCandidates (awareTimeline s base tz).localTimezone d wall =
      .ok (d.ordered (IntSet.ofList (first ++ second))) := by
    change (foldCandidate (s.timezone.getD tz) wall false >>= _) = _
    rw [hf]
    change (foldCandidate (s.timezone.getD tz) wall true >>= _) = _
    rw [hs]
    rfl
  unfold searchWall
  rw [candidates]
  exact ⟨_, rfl⟩

/-- Inside the years the search returns. -/
theorem searchDates_ok (fields : s.ClockFields) (range : SearchInRange base.instant d)
    (skip : Bool) : ∃ r, searchDates s (awareTimeline s base tz) d skip = .ok r := by
  unfold searchDates
  rw [← windowDate_zero (d := d)]
  rw [walk_eq_firstOver]
  · refine firstOver_ok ?_
    intro k inside
    have small := (List.mem_range'_1.mp inside).2
    rw [searchDate_eq fields]
    refine firstOver_ok ?_
    intro wall kept
    have on := List.mem_of_mem_filter kept
    split at on
    · exact searchWall_ok range (by omega) ((mem_readings fields).mp on).1
    · cases on
  · intro k small
    unfold addDays
    rw [← windowDate_succ, if_pos (inRange_of_near s tz range (k := k + 1) (by omega) (by omega))]

theorem timelineBase_aware (aware : base.tzinfo = some tz) (range : SearchInRange base.instant d) :
    timelineBase s base = .ok (awareTimeline s base tz) := by
  have instant : base.instant = base.wall - tz.utcoffset base.wall base.fold := by
    simp [Moment.instant, aware]
  have shifted := dateOf_add base.instant _ ((s.timezone.getD tz).offsetAt_bound base.instant)
  have there : toUtc tz base.wall base.fold = .ok base.instant := by
    rw [toUtc, ← instant]
    refine checkedWall_ok ?_
    unfold SearchInRange DateInRange at *
    cases d <;> simp only [Direction.sign] at range <;> omega
  have here : fromUtc (s.timezone.getD tz) base.instant =
      .ok ⟨(s.timezone.getD tz).wallAt base.instant, (s.timezone.getD tz).foldAt base.instant,
        some (s.timezone.getD tz)⟩ := by
    unfold fromUtc
    rw [checkedWall_ok]
    · rfl
    · rw [TzInfo.wallAt]
      unfold SearchInRange DateInRange at *
      cases d <;> simp only [Direction.sign] at range <;> omega
  unfold timelineBase
  rw [aware]
  change (toUtc tz base.wall base.fold >>= _) = _
  rw [there]
  change (fromUtc (s.timezone.getD tz) base.instant >>= _) = _
  rw [here]
  rfl

end Range

/-! ## One schedule -/

section Search

variable {s : Schedule} {base : Moment} {tz : TzInfo} {d : Direction}

/-- Skipping by readings loses no run where it is done. -/
theorem skips_aware (skip : Bool)
    (own : skip = true → skipByWallTime (some (s.timezone.getD tz)) = true) :
    Skips (awareTimeline s base tz) d skip := by
  refine ⟨rfl, ?_⟩
  intro skipped
  obtain ⟨offset, shift⟩ := (fixedOffset_of_skip (own skipped)).shift
  exact ⟨offset, (shift _ rfl).1⟩

/-- The moment at which an aware base's clock shows an instant. -/
def shownIn (tz : TzInfo) (instant : Int) : Moment :=
  ⟨tz.wallAt instant, tz.foldAt instant, some tz⟩

/-- A moment that is shown in a zone keeps its instant. -/
theorem instant_shownIn (tz : TzInfo) (instant : Int) : (shownIn tz instant).instant = instant := by
  have round := tz.utcoffset_wallAt instant
  simp only [shownIn, Moment.instant, round]
  rw [TzInfo.wallAt]
  omega

/-- A schedule's search returns its leading run, or raises the error that is caught. -/
theorem findRunForSchedule_aware (fields : s.ClockFields) (aware : base.tzinfo = some tz)
    (range : SearchInRange base.instant d) :
    (∃ u, Leads s (awareTimeline s base tz) d u ∧
        findRunForSchedule s base d = .ok (shownIn tz u)) ∨
      ((∀ v, ¬ Run s (awareTimeline s base tz) d v) ∧
        findRunForSchedule s base d = .error noMatchingDatetime) := by
  have skips : Skips (awareTimeline s base tz) d (skipByWallTime (some (s.timezone.getD tz))) :=
    skips_aware _ id
  have searching : findRunForSchedule s base d = searchDates s (awareTimeline s base tz) d
      (skipByWallTime (some (s.timezone.getD tz))) >>= fun found =>
        found.elim (.error noMatchingDatetime) (restoreTimeline (awareTimeline s base tz)) := by
    unfold findRunForSchedule
    rw [timelineBase_aware aware range]
    change searchDates s (awareTimeline s base tz) d _ >>= _ = _
    congr 1
    funext found
    cases found <;> rfl
  obtain ⟨found, searched⟩ : ∃ found, searchDates s (awareTimeline s base tz) d
      (skipByWallTime (some (s.timezone.getD tz))) = .ok found := searchDates_ok fields range _
  rw [searched] at searching
  cases found with
  | none => exact Or.inr ⟨no_run_of_searchDates fields skips searched, searching⟩
  | some u =>
      have leads := leads_of_searchDates fields skips searched
      refine Or.inl ⟨u, leads, searching.trans ?_⟩
      obtain ⟨k, small, on⟩ := leads.run.window
      have bound := (s.timezone.getD tz).offsetAt_bound u
      have shifted := dateOf_add ((awareTimeline s base tz).wallAt u)
        (-(s.timezone.getD tz).offsetAt u) (by omega)
      have back : (awareTimeline s base tz).wallAt u + -(s.timezone.getD tz).offsetAt u = u := by
        change u + (s.timezone.getD tz).offsetAt u + _ = u
        omega
      rw [back] at shifted
      exact fromUtc_near s tz range (k := k) (by omega) (by omega) tz

end Search

/-! ## Unions -/

section Unions

variable {schedules : List Schedule} {base run : Moment} {tz : TzInfo} {d : Direction}

/-- The runs of a list of schedules, each with its leading instant. -/
theorem candidateRuns_append {before after : List Schedule} {runs runs' : List Moment}
    (first : candidateRuns base d before = .ok runs)
    (second : candidateRuns base d after = .ok runs') :
    candidateRuns base d (before ++ after) = .ok (runs ++ runs') := by
  induction before generalizing runs with
  | nil =>
      cases first
      exact second
  | cons s rest ih =>
      unfold candidateRuns at first
      rw [List.cons_append, candidateRuns]
      cases found : findRunForSchedule s base d with
      | ok run =>
          rw [found] at first
          dsimp only at first ⊢
          cases others : candidateRuns base d rest with
          | error e =>
              rw [others] at first
              cases first
          | ok later =>
              rw [others] at first
              cases first
              rw [ih others]
              rfl
      | error e =>
          rw [found] at first
          dsimp only at first ⊢
          split at first
          · rw [if_pos ‹_›]
            exact ih first
          · cases first

/-- Where the schedules of a union have their runs. -/
theorem split_of_mem_candidateRuns {before after : List Moment}
    (h : candidateRuns base d schedules = .ok (before ++ run :: after)) :
    ∃ pre s post, schedules = pre ++ s :: post ∧ findRunForSchedule s base d = .ok run ∧
      candidateRuns base d pre = .ok before ∧ candidateRuns base d post = .ok after := by
  induction schedules generalizing before with
  | nil =>
      have empty : [] = before ++ run :: after := Except.ok.inj h
      simp at empty
  | cons s rest ih =>
      unfold candidateRuns at h
      cases found : findRunForSchedule s base d with
      | ok first =>
          rw [found] at h
          dsimp only at h
          cases others : candidateRuns base d rest with
          | error e =>
              rw [others] at h
              cases h
          | ok later =>
              rw [others] at h
              have eq : first :: later = before ++ run :: after := Except.ok.inj h
              cases before with
              | nil =>
                  obtain ⟨rfl, rfl⟩ := List.cons.inj eq
                  exact ⟨[], s, rest, rfl, found, rfl, others⟩
              | cons first' before =>
                  obtain ⟨rfl, rfl⟩ := List.cons.inj eq
                  obtain ⟨pre, s', post, rfl, found', left, right⟩ := ih others
                  refine ⟨s :: pre, s', post, rfl, found', ?_, right⟩
                  rw [candidateRuns, found]
                  dsimp only
                  rw [left]
                  rfl
      | error e =>
          rw [found] at h
          dsimp only at h
          split at h
          · obtain ⟨pre, s', post, rfl, found', left, right⟩ := ih h
            refine ⟨s :: pre, s', post, rfl, found', ?_, right⟩
            rw [candidateRuns, found]
            dsimp only
            rw [if_pos ‹_›]
            exact left
          · cases h

/-- The best stays if nothing later is better. -/
theorem foldl_better_keeps {m : Moment} {rest : List Moment}
    (later : ∀ x ∈ rest, ¬ d.Before x.wall m.wall) : rest.foldl (better d) m = m := by
  induction rest with
  | nil => rfl
  | cons x rest ih =>
      rw [List.foldl_cons, better, if_neg (later x List.mem_cons_self)]
      exact ih (fun y mem => later y (List.mem_cons_of_mem _ mem))

/-- The best is replaced by a run that is better than all before it. -/
theorem foldl_better_reaches {m : Moment} {before after : List Moment}
    (first : d.Before run.wall m.wall) (earlier : ∀ x ∈ before, d.Before run.wall x.wall)
    (later : ∀ x ∈ after, ¬ d.Before x.wall run.wall) :
    (before ++ run :: after).foldl (better d) m = run := by
  induction before generalizing m with
  | nil =>
      rw [List.nil_append, List.foldl_cons, better, if_pos first]
      exact foldl_better_keeps later
  | cons x before ih =>
      rw [List.cons_append, List.foldl_cons]
      refine ih ?_ (fun y mem => earlier y (List.mem_cons_of_mem _ mem))
      unfold better
      split
      · exact earlier x List.mem_cons_self
      · exact first

/-- The best is the first of those no other is better than. -/
theorem best_of_split {before after : List Moment}
    (earlier : ∀ x ∈ before, d.Before run.wall x.wall)
    (later : ∀ x ∈ after, ¬ d.Before x.wall run.wall) :
    best d (before ++ run :: after) = some run := by
  cases before with
  | nil =>
      rw [List.nil_append, best, foldl_better_keeps later]
  | cons x before =>
      rw [List.cons_append, best, foldl_better_reaches (earlier x List.mem_cons_self)
        (fun y mem => earlier y (List.mem_cons_of_mem _ mem)) later]

/-- The run of one schedule leads on its clock, and on the clock of the base no other schedule's
leading run comes before it; of two at the same reading the schedule listed first has its way. -/
def TakenFirst (schedules : List Schedule) (base : Moment) (tz : TzInfo) (d : Direction)
    (u : Int) : Prop :=
  ∃ before s after, schedules = before ++ s :: after ∧ Leads s (awareTimeline s base tz) d u ∧
    (∀ s' ∈ before, ∀ v, Leads s' (awareTimeline s' base tz) d v →
      d.Before (tz.wallAt u) (tz.wallAt v)) ∧
    ∀ s' ∈ after, ∀ v, Leads s' (awareTimeline s' base tz) d v →
      ¬ d.Before (tz.wallAt v) (tz.wallAt u)

variable (fields : ∀ s ∈ schedules, s.ClockFields) (aware : base.tzinfo = some tz)
  (range : SearchInRange base.instant d)

include fields aware range

/-- Every schedule of the union finds a run. -/
theorem candidateRuns_ok : ∃ runs, candidateRuns base d schedules = .ok runs := by
  induction schedules with
  | nil => exact ⟨[], rfl⟩
  | cons s rest ih =>
      obtain ⟨runs, others⟩ := ih (fun s mem => fields s (List.mem_cons_of_mem _ mem))
      unfold candidateRuns
      rcases findRunForSchedule_aware (fields s List.mem_cons_self) aware range with
        ⟨u, -, found⟩ | ⟨-, failed⟩
      · rw [found, others]
        exact ⟨_, rfl⟩
      · rw [failed, others]
        exact ⟨_, rfl⟩

/-- A run among the candidates is where some schedule leads. -/
theorem leads_of_mem {runs : List Moment} (candidates : candidateRuns base d schedules = .ok runs) :
    (∀ run ∈ runs, ∃ s ∈ schedules, ∃ u, Leads s (awareTimeline s base tz) d u ∧
        run = shownIn tz u) ∧
      ∀ s ∈ schedules, ∀ u, Leads s (awareTimeline s base tz) d u → shownIn tz u ∈ runs := by
  obtain ⟨from_, each⟩ := of_candidateRuns candidates
  refine ⟨?_, ?_⟩
  · intro run inside
    obtain ⟨s, mem, found⟩ := from_ run inside
    rcases findRunForSchedule_aware (fields s mem) aware range with ⟨u, leads, found'⟩ | ⟨-, failed⟩
    · rw [found] at found'
      exact ⟨s, mem, u, leads, Except.ok.inj found'⟩
    · rw [found] at failed
      cases failed
  · intro s mem u leads
    rcases findRunForSchedule_aware (fields s mem) aware range with ⟨u', leads', found⟩ | ⟨none, -⟩
    · rw [leads.unique leads']
      rcases each s mem with ⟨run, inside, found'⟩ | ⟨e, failed, -⟩
      · rw [found] at found'
        rw [Except.ok.inj found']
        exact inside
      · rw [found] at failed
        cases failed
    · exact absurd leads.run (none u)

/-- The run that a union takes. -/
theorem findRun_iff (u : Int) :
    (∃ r, findRun schedules base d = .ok r ∧ r.tzinfo = base.tzinfo ∧ r.instant = u) ↔
      TakenFirst schedules base tz d u := by
  constructor
  · rintro ⟨r, run, -, rfl⟩
    obtain ⟨runs, candidates, chosen⟩ := of_findRun run
    obtain ⟨before, after, rfl, earlier, later⟩ := split_of_best chosen
    obtain ⟨pre, s, post, rfl, found, left, right⟩ := split_of_mem_candidateRuns candidates
    have inPre : ∀ s' ∈ pre, s'.ClockFields := fun s' mem => fields s' (by simp [mem])
    have inPost : ∀ s' ∈ post, s'.ClockFields := fun s' mem => fields s' (by simp [mem])
    rcases findRunForSchedule_aware (fields s (by simp)) aware range with
      ⟨u, leads, found'⟩ | ⟨-, failed⟩
    · rw [found] at found'
      cases found'
      rw [instant_shownIn]
      refine ⟨pre, s, post, rfl, leads, ?_, ?_⟩
      · intro s' mem v leads'
        exact earlier _ ((leads_of_mem inPre aware range left).2 s' mem v leads')
      · intro s' mem v leads'
        exact later _ ((leads_of_mem inPost aware range right).2 s' mem v leads')
    · rw [found] at failed
      cases failed
  · rintro ⟨before, s, after, rfl, leads, earlier, later⟩
    have inBefore : ∀ s' ∈ before, s'.ClockFields := fun s' mem => fields s' (by simp [mem])
    have inAfter : ∀ s' ∈ after, s'.ClockFields := fun s' mem => fields s' (by simp [mem])
    obtain ⟨left, hl⟩ := candidateRuns_ok inBefore aware range
    obtain ⟨right, hr⟩ := candidateRuns_ok inAfter aware range
    have found : findRunForSchedule s base d = .ok (shownIn tz u) := by
      rcases findRunForSchedule_aware (fields s (by simp)) aware range with
        ⟨u', leads', found⟩ | ⟨none, -⟩
      · rw [leads.unique leads']
        exact found
      · exact absurd leads.run (none u)
    have own : candidateRuns base d (s :: after) = .ok (shownIn tz u :: right) := by
      rw [candidateRuns, found, hr]
      rfl
    have chosen : best d (left ++ shownIn tz u :: right) = some (shownIn tz u) := by
      refine best_of_split ?_ ?_
      · intro x mem
        obtain ⟨s', inside, v, leads', rfl⟩ := (leads_of_mem inBefore aware range hl).1 x mem
        exact earlier s' inside v leads'
      · intro x mem
        obtain ⟨s', inside, v, leads', rfl⟩ := (leads_of_mem inAfter aware range hr).1 x mem
        exact later s' inside v leads'
    exact ⟨shownIn tz u, findRun_of_best (candidateRuns_append hl own) chosen, aware.symm,
      instant_shownIn tz u⟩

end Unions

/-! ## Exactness -/

/-- The first instant past the base at which some schedule of the union runs. -/
def FirstMatching (schedules : List Schedule) (base : Moment) (d : Direction) (u : Int) : Prop :=
  d.Before base.instant u ∧ Matching schedules base.tzinfo u ∧
    ∀ v, d.Before base.instant v → d.Before v u → ¬ Matching schedules base.tzinfo v

/-- The operation returns the first matching instant, whenever there is one. -/
def FindsFirst (schedules : List Schedule) (base : Moment) (d : Direction)
    (result : Except PyError Moment) : Prop :=
  ∀ u, FirstMatching schedules base d u →
    ∃ r, result = .ok r ∧ r.tzinfo = base.tzinfo ∧ r.instant = u

/-- The first matching instant is the one the clocks put first. -/
def FirstOnClock (schedules : List Schedule) (base : Moment) (tz : TzInfo) (d : Direction) : Prop :=
  ∀ u, FirstMatching schedules base d u → TakenFirst schedules base tz d u

/-- Across any offset transitions, from an aware base, `next_cron_run` and `previous_cron_run`
return the first matching instant exactly when that instant is the one the clocks put first. -/
theorem cron_search_exact_iff_first_on_clock (p : Platform) (schedule : String)
    (schedules : List Schedule) (base : Moment) (tz : TzInfo)
    (parsed : parseSchedule p schedule = .ok schedules) (aware : base.tzinfo = some tz) :
    (SearchInRange base.instant .next →
      (FindsFirst schedules base .next (nextCronRun p schedule base) ↔
        FirstOnClock schedules base tz .next)) ∧
    (SearchInRange base.instant .previous →
      (FindsFirst schedules base .previous (previousCronRun p schedule base) ↔
        FirstOnClock schedules base tz .previous)) := by
  obtain ⟨fields, -⟩ := parseSchedule_shared schedule schedules parsed
  have found (d : Direction) (range : SearchInRange base.instant d) :
      FindsFirst schedules base d (runInDirection p schedule base d) ↔
        FirstOnClock schedules base tz d := by
    unfold runInDirection
    rw [parsed]
    change FindsFirst schedules base d (findRun schedules base d) ↔ _
    exact forall_congr' (fun u => imp_congr_right (fun _ => findRun_iff fields aware range u))
  exact ⟨found .next, found .previous⟩

/-! ## A repeated hour -/

section OneTransition

/-- How far from the change a clock of the old offset is read on: a reading shown twice counts as
old with `fold` 0 and as new with `fold` 1, a skipped one the other way. -/
def readUntil (before after : Int) (fold : Bool) : Int :=
  if fold then min before after else max before after

/-- The zone whose offset changes once, resolved as `ZoneInfo` resolves it. -/
def oneTransition (at_ before after : Int) (bound : -dayLength < before ∧ before < dayLength)
    (bound' : -dayLength < after ∧ after < dayLength) (whole : before % secondLength = 0)
    (whole' : after % secondLength = 0) : ZoneInfo where
  offsetAt instant := if instant < at_ then before else after
  foldAt instant := decide (at_ ≤ instant ∧ instant - at_ < before - after)
  utcoffset wall fold :=
    if wall < at_ + readUntil before after fold then before else after
  roundTrip instant := by
    have old : readUntil before after false = max before after := rfl
    have new : readUntil before after true = min before after := rfl
    by_cases early : instant < at_
    · have unfolded : decide (at_ ≤ instant ∧ instant - at_ < before - after) = false := by
        rw [decide_eq_false_iff_not]
        omega
      rw [if_pos early, unfolded, old]
      exact if_pos (by omega)
    · rw [if_neg early]
      by_cases repeated : instant - at_ < before - after
      · have folded : decide (at_ ≤ instant ∧ instant - at_ < before - after) = true := by
          rw [decide_eq_true_iff]
          omega
        rw [folded, new]
        exact if_neg (by omega)
      · have unfolded : decide (at_ ≤ instant ∧ instant - at_ < before - after) = false := by
          rw [decide_eq_false_iff_not]
          omega
        rw [unfolded, old]
        exact if_neg (by omega)
  offsetAt_bound instant := by split <;> assumption
  utcoffset_bound wall fold := by split <;> assumption
  offsetAt_whole instant := by split <;> assumption
  utcoffset_whole wall fold := by split <;> assumption

/-- Clocks are set back from -04:00 to -05:00 on 2026-11-01 at 06:00 UTC. -/
def fallBack : TzInfo :=
  .zone (oneTransition (wallOf (Calendar.ordinal ⟨2026, 11, 1⟩) 6 0 0) (-4 * hourLength)
    (-5 * hourLength) (by decide) (by decide) (by decide) (by decide))

/-- 01:00 local time, before the clocks are set back. -/
def firstOneOClock : Moment := ⟨wallOf (Calendar.ordinal ⟨2026, 11, 1⟩) 1 0 0, false, some fallBack⟩

/-- Every half hour. -/
def halfHourly : String := "*/30 * * * *"

/-- The parse of the schedule. -/
def halfHourlySchedules : List Schedule :=
  (parseSchedule plainPlatform halfHourly).toOption.getD []

/-- 05:30 UTC, when the clock shows 01:30 for the first time. -/
def firstHalfPastOne : Int := wallOf (Calendar.ordinal ⟨2026, 11, 1⟩) 5 30 0

/-- The first half hour behind the base. -/
theorem firstHalfPastOne_first :
    FirstMatching halfHourlySchedules firstOneOClock .next firstHalfPastOne := by
  refine ⟨by decide +kernel, ?_, ?_⟩
  · have some : (halfHourlySchedules.any (fun s =>
        decide (s.MatchesWall (s.readingAt firstOneOClock.tzinfo firstHalfPastOne)))) = true := by
      decide +kernel
    obtain ⟨s, mem, runs⟩ := List.any_eq_true.mp some
    exact ⟨s, mem, of_decide_eq_true runs⟩
  · rintro v after before ⟨s, mem, reading⟩
    have all : halfHourlySchedules.all (fun s => s.timezone.isNone &&
        ((IntSet.range 0 59).all (fun m => !s.minutes.matches m || m == 0 || m == 30) &&
          (IntSet.range 0 59).all (fun n => !s.seconds.matches n || n == 0))) = true := by
      decide +kernel
    have own := List.all_eq_true.mp all s mem
    simp only [Bool.and_eq_true, List.all_eq_true, IntSet.mem_range, Bool.or_eq_true,
      Bool.not_eq_true', beq_iff_eq, Option.isNone_iff_eq_none] at own
    obtain ⟨zone, minutes, seconds⟩ := own
    have base : firstOneOClock.instant = wallOf (Calendar.ordinal ⟨2026, 11, 1⟩) 5 0 0 := by
      decide +kernel
    have half : firstHalfPastOne = wallOf (Calendar.ordinal ⟨2026, 11, 1⟩) 5 0 0 + 1800000000 := by
      decide +kernel
    simp only [Direction.Before, Direction.sign, one_mul, base, half] at after before
    have early : v < wallOf (Calendar.ordinal ⟨2026, 11, 1⟩) 6 0 0 := by
      have : wallOf (Calendar.ordinal ⟨2026, 11, 1⟩) 6 0 0 =
        wallOf (Calendar.ordinal ⟨2026, 11, 1⟩) 5 0 0 + 3600000000 := by decide +kernel
      omega
    have shown : s.readingAt firstOneOClock.tzinfo v = v - 4 * hourLength := by
      simp only [Schedule.readingAt, firstOneOClock, zone, Option.getD_none, TzInfo.wallAt, fallBack,
        TzInfo.offsetAt, oneTransition, if_pos early]
      omega
    rw [shown] at reading
    obtain ⟨whole, second, minute, -, -⟩ := reading
    have clock := clockTime (v - 4 * hourLength)
    have onMinute := minutes _ clock.minute
    have onSecond := seconds _ clock.second
    rw [minute] at onMinute
    rw [second] at onSecond
    simp only [Bool.true_eq_false, false_or] at onMinute onSecond
    have hour : wallOf (Calendar.ordinal ⟨2026, 11, 1⟩) 5 0 0 % hourLength = 0 := by decide +kernel
    generalize wallOf (Calendar.ordinal ⟨2026, 11, 1⟩) 5 0 0 = five at *
    simp only [minuteOf, secondOf, microsecondOf, hourLength_eq, minuteLength_eq,
      secondLength_eq] at *
    omega

/-- With its base in the repeated hour the search returns 06:00 UTC, when the clock shows 01:00
again, and passes over the half hour before it. -/
theorem half_hourly_skips_half_past_one :
    (parseSchedule plainPlatform halfHourly = .ok halfHourlySchedules ∧
      SearchInRange firstOneOClock.instant .next) ∧
    ¬ FindsFirst halfHourlySchedules firstOneOClock .next
      (nextCronRun plainPlatform halfHourly firstOneOClock) ∧
    (nextCronRun plainPlatform halfHourly firstOneOClock).map Moment.instant =
      .ok (wallOf (Calendar.ordinal ⟨2026, 11, 1⟩) 6 0 0) := by
  have run : (nextCronRun plainPlatform halfHourly firstOneOClock).map Moment.instant =
      .ok (wallOf (Calendar.ordinal ⟨2026, 11, 1⟩) 6 0 0) := by
    decide +kernel
  refine ⟨⟨ok_of_isOk [] (by decide +kernel), by decide +kernel⟩, ?_, run⟩
  intro finds
  obtain ⟨r, found, -, instant⟩ := finds firstHalfPastOne firstHalfPastOne_first
  rw [found] at run
  have late : firstHalfPastOne = wallOf (Calendar.ordinal ⟨2026, 11, 1⟩) 6 0 0 :=
    instant.symm.trans (Except.ok.inj run)
  revert late
  decide +kernel

/-- The search and the order of readings differ here. -/
theorem half_hourly_exact_iff :
    FindsFirst halfHourlySchedules firstOneOClock .next
        (nextCronRun plainPlatform halfHourly firstOneOClock) ↔
      FirstOnClock halfHourlySchedules firstOneOClock fallBack .next :=
  (cron_search_exact_iff_first_on_clock plainPlatform halfHourly halfHourlySchedules firstOneOClock
    fallBack (ok_of_isOk [] (by decide +kernel)) rfl).1 (by decide +kernel)

end OneTransition

end DjQueue.Crontab
