import DjQueue.Text.Evaluation
import DjQueue.Crontab.LeadingZero

/-!
# Clock times

`9`, `9:30`, `9pm` and `9:30 PM`, as `_parse_natural_time` reads them: the hour and the minute that
are written, the hour moved by `am` or `pm`.
-/

namespace DjQueue.Crontab

open Regex

/-- A check of finitely many characters. -/
theorem forall_mem_of_all {cs : List Char} {P : Char → Prop} [DecidablePred P]
    (checked : cs.all (fun c => decide (P c)) = true) : ∀ c ∈ cs, P c :=
  fun c mem => of_decide_eq_true (List.all_eq_true.mp checked c mem)

/-! ## Words with one blank between them -/

/-- Words with single blanks between. -/
inductive Spaced : List Char → Prop
  | word {w : List Char} (solid : Solid w) : Spaced w
  | cons {w cs : List Char} (solid : Solid w) (rest : Spaced cs) : Spaced (w ++ ' ' :: cs)

/-- Text that begins and ends with other characters is its own strip. -/
theorem stripBy_eq_self {p : Char → Bool} {cs : List Char} (first : ∀ c ∈ cs.head?, p c = false)
    (last : ∀ c ∈ cs.getLast?, p c = false) : stripBy p cs = cs := by
  have kept : ∀ {ds : List Char}, (∀ c ∈ ds.head?, p c = false) → ds.dropWhile p = ds := by
    intro ds first
    cases ds with
    | nil => rfl
    | cons d ds =>
        rw [List.dropWhile_cons_of_neg]
        rw [first d rfl]
        exact Bool.false_ne_true
  rw [stripBy, kept first, kept (by rwa [List.head?_reverse]), List.reverse_reverse]

namespace Spaced

variable {a b cs : List Char}

theorem ne_nil (spaced : Spaced cs) : cs ≠ [] := by
  cases spaced with
  | word solid => exact solid.1
  | cons solid rest => simp

theorem head (spaced : Spaced cs) : ∀ c ∈ cs.head?, isSpace c = false := by
  intro c mem
  cases spaced with
  | word solid => exact solid.2 c (List.mem_of_mem_head? mem)
  | cons solid rest =>
      rw [List.head?_append_of_ne_nil _ solid.1] at mem
      exact solid.2 c (List.mem_of_mem_head? mem)

theorem last (spaced : Spaced cs) : ∀ c ∈ cs.getLast?, isSpace c = false := by
  induction spaced with
  | word solid => exact fun c mem => solid.2 c (List.mem_of_getLast? mem)
  | @cons w cs solid rest ih =>
      intro c mem
      apply ih c
      rw [List.getLast?_append_of_ne_nil _ (by simp), List.getLast?_cons,
        List.getLast?_eq_some_getLast rest.ne_nil] at mem
      rw [List.getLast?_eq_some_getLast rest.ne_nil]
      exact mem

theorem strip (spaced : Spaced cs) : Crontab.strip cs = cs :=
  stripBy_eq_self spaced.head spaced.last

/-- Two spaced texts with a blank between. -/
theorem blank (first : Spaced a) (later : Spaced b) : Spaced (a ++ ' ' :: b) := by
  induction first with
  | word solid => exact .cons solid later
  | cons solid rest ih =>
      rw [List.append_assoc, List.cons_append]
      exact .cons solid ih

/-- Spaced text that goes on without a blank. -/
theorem append (first : Spaced a) (solid : ∀ c ∈ b, isSpace c = false) : Spaced (a ++ b) := by
  induction first with
  | word some => exact .word (solid_append some solid)
  | cons some rest ih =>
      rw [List.append_assoc, List.cons_append]
      exact .cons some ih

/-- Blanks are matched by blanks only. -/
theorem marked_spaces : spaces.Marked isSpace isSpace := by
  refine ⟨fun cs reads => ?_, fun cs reads => reads.of_some1.2⟩
  rcases reads.of_some1 with ⟨some, all⟩
  rcases List.exists_mem_of_ne_nil cs some with ⟨c, mem⟩
  exact ⟨c, mem, all c mem⟩

/-- One blank is matched where it stands. -/
theorem run_spaces (spaced : Spaced cs) (left : List Char) :
    spaces.run some ⟨left, ' ' :: cs, []⟩ = some ⟨' ' :: left, cs, []⟩ := by
  have none : ∀ c ∈ ([] : List Char), isSpace c = true := fun c mem => absurd mem List.not_mem_nil
  exact manyFrom_append none spaced.head rfl

/-- `re.sub(r"\s+", " ", text)` changes nothing. -/
theorem sub_spaces (spaced : Spaced cs) : sub spaces [' '] cs = cs := by
  have pieces : ∀ fuel left, cs.length ≤ fuel →
      [' '].intercalate (splitFrom spaces fuel left cs) = cs ∧
        splitFrom spaces fuel left cs ≠ [] := by
    induction spaced with
    | word solid =>
        intro fuel left enough
        rw [(marked_spaces.silent solid.2).splitFrom]
        exact ⟨List.intercalate_singleton, List.cons_ne_nil _ _⟩
    | @cons w cs solid rest ih =>
        intro fuel left enough
        cases fuel with
        | zero => simp at enough
        | succ fuel =>
            have quiet : NoMatchIn spaces w (' ' :: cs) :=
              marked_spaces.quiet solid.2 fun c mem => solid.2 c (List.mem_of_getLast? mem)
            rcases ih fuel (' ' :: (w.reverse ++ left)) (by simp at enough; omega) with
              ⟨joined, some⟩
            rw [splitFrom_append quiet (run_spaces rest _)]
            refine ⟨?_, List.cons_ne_nil _ _⟩
            rw [List.intercalate_cons_of_ne_nil some, joined, List.append_assoc]
            rfl
  exact (pieces (cs.length + 1) [] (Nat.le_succ _)).1

end Spaced

/-! ## Numerals -/

theorem mem_of_asciiDigit {c : Char} (digit : c.isDigit = true) : c ∈ "0123456789".toList := by
  have range : 48 ≤ c.toNat ∧ c.toNat ≤ 57 := by
    simp only [Char.isDigit, Bool.and_eq_true, decide_eq_true_eq] at digit
    exact ⟨digit.1, digit.2⟩
  rw [← Char.ofNat_toNat c]
  generalize c.toNat = n at range
  have each : ∀ n < 58, 48 ≤ n → Char.ofNat n ∈ "0123456789".toList := by decide
  exact each n (by omega) range.1

theorem isDigit_of_asciiDigit {c : Char} (digit : c.isDigit = true) : isDigit c = true := by
  have each : ∀ c ∈ "0123456789".toList, isDigit c = true := forall_mem_of_all (by decide)
  exact each c (mem_of_asciiDigit digit)

section Numerals

variable {cs : List Char}

theorem isInt_of_digits (some : cs ≠ []) (digits : ∀ c ∈ cs, isDigit c = true) :
    isInt cs = true := by
  cases cs with
  | nil => exact absurd rfl some
  | cons c cs =>
      have digit := digits c List.mem_cons_self
      have unsigned : (c == '-' || c == '+') = false := by
        rw [Bool.or_eq_false_iff, beq_eq_false_iff_ne, beq_eq_false_iff_ne]
        constructor <;> (rintro rfl; revert digit; decide)
      have later : fullmatch intRx (c :: cs) = Option.some ⟨cs.reverse ++ [c], [], []⟩ := by
        have taken : manyFrom isDigit (Rx.run .stop fun p =>
            if p.rest.isEmpty then Option.some p else none) [] [c] (cs ++ []) =
              Option.some ⟨cs.reverse ++ [c], [], []⟩ :=
          manyFrom_append (fun d mem => digits d (List.mem_cons_of_mem c mem))
            (fun d mem => by cases mem) rfl
        rw [List.append_nil] at taken
        simp only [fullmatch, intRx, seqs, opt, some1, Rx.run, unsigned, digit, if_true]
        exact taken
      rw [isInt, later]
      rfl

/-- Digits that are not too many are read as their number. -/
theorem toInt_of_digits (digits : ∀ c ∈ cs, isDigit c = true)
    (short : cs.length ≤ intMaxStrDigits) : toInt cs = .ok (decimalNumber cs) := by
  have unsigned : ∀ c ∈ cs.head?, c ≠ '-' ∧ c ≠ '+' := by
    intro c mem
    have digit := digits c (List.mem_of_mem_head? mem)
    constructor <;> (rintro rfl; revert digit; decide)
  cases cs with
  | nil => rfl
  | cons c cs =>
      have apart := unsigned c rfl
      simpa [toInt, apart.1, apart.2] using short

end Numerals

/-! ## Times as they are written -/

/-- `am` and `pm`, in any case. -/
def meridiemSpellings : List (List Char) :=
  ["am".toList, "aM".toList, "Am".toList, "AM".toList, "pm".toList, "pM".toList, "Pm".toList,
    "PM".toList]

/-- Half of the day, as it is written. -/
structure Meridiem where
  /-- Behind a blank. -/
  apart : Bool
  letters : List Char
  named : letters ∈ meridiemSpellings

/-- `h` or `h:mm`, with an optional `am` or `pm`. -/
structure WrittenTime where
  hour : List Char
  minute : Option (List Char)
  meridiem : Option Meridiem
  hourDigits : hour ≠ [] ∧ ∀ c ∈ hour, c.isDigit = true
  hourBound : decimalNumber hour ≤ 24
  minuteDigits : ∀ m ∈ minute, m ≠ [] ∧ ∀ c ∈ m, c.isDigit = true
  minuteBound : ∀ m ∈ minute, decimalNumber m ≤ 59

/-- The blank in front of it. -/
def Meridiem.gap (m : Meridiem) : List Char := if m.apart then [' '] else []

/-- The letters, lowered. -/
def Meridiem.lower (m : Meridiem) : List Char := m.letters.map Char.toLower

namespace WrittenTime

variable (t : WrittenTime)

/-- The time without what says which half of the day it is in. -/
def clock : List Char := t.hour ++ t.minute.elim [] (fun m => ':' :: m)

/-- A time with its half of the day in some spelling. -/
def written (spelling : Meridiem → List Char) : List Char :=
  t.clock ++ t.meridiem.elim [] (fun m => m.gap ++ spelling m)

/-- The time as it is written. -/
def text : List Char := t.written Meridiem.letters

/-- The time, lowered. -/
def lowerText : List Char := t.written Meridiem.lower

/-- The hour and the minute, after `_adjust_natural_hour`. -/
def reading : Int × Int :=
  (adjustNaturalHour (decimalNumber t.hour) (t.meridiem.map Meridiem.lower),
    t.minute.elim 0 decimalNumber)

end WrittenTime

/-! ## The characters of a time -/

/-- The characters a time is written in. -/
def timeCharacters : List Char := "0123456789: apmAPM".toList

/-- The letters of a half are among six. -/
theorem mem_of_mem_meridiemSpellings {letters : List Char} (named : letters ∈ meridiemSpellings) :
    ∀ c ∈ letters, c ∈ "apmAPM".toList := by
  have each : ∀ letters ∈ meridiemSpellings,
      letters.all (fun c => "apmAPM".toList.contains c) = true := by
    decide
  exact fun c mem => List.contains_iff_mem.mp (List.all_eq_true.mp (each letters named) c mem)

theorem solid_of_mem_meridiemSpellings {letters : List Char}
    (named : letters ∈ meridiemSpellings) : Solid letters := by
  have some : ∀ letters ∈ meridiemSpellings, letters ≠ [] := by decide
  have each : ∀ c ∈ "apmAPM".toList, isSpace c = false := forall_mem_of_all (by decide)
  exact ⟨some letters named, fun c mem => each c (mem_of_mem_meridiemSpellings named c mem)⟩

/-- Only a blank stands in front of a half. -/
theorem Meridiem.eq_of_mem_gap (m : Meridiem) {c : Char} (mem : c ∈ m.gap) : c = ' ' := by
  unfold gap at mem
  split at mem
  · exact List.mem_singleton.mp mem
  · cases mem

namespace WrittenTime

variable (t : WrittenTime)

theorem mem_clock {c : Char} (mem : c ∈ t.clock) : c ∈ "0123456789:".toList := by
  have digit : ∀ c, c.isDigit = true → c ∈ "0123456789:".toList := by
    intro c digit
    have each : ∀ c ∈ "0123456789".toList, c ∈ "0123456789:".toList :=
      forall_mem_of_all (by decide)
    exact each c (mem_of_asciiDigit digit)
  rcases List.mem_append.mp mem with hour | minute
  · exact digit c (t.hourDigits.2 c hour)
  · cases written : t.minute with
    | none =>
        rw [written] at minute
        cases minute
    | some m =>
        rw [written] at minute
        rcases List.mem_cons.mp minute with rfl | inside
        · decide
        · exact digit c ((t.minuteDigits m written).2 c inside)

theorem clock_eq_cons : ∃ c rest, t.clock = c :: rest ∧ c.isDigit = true := by
  cases written : t.hour with
  | nil => exact absurd written t.hourDigits.1
  | cons c rest =>
      refine ⟨c, rest ++ t.minute.elim [] (fun m => ':' :: m), ?_, ?_⟩
      · rw [clock, written]
        rfl
      · exact t.hourDigits.2 c (written ▸ List.mem_cons_self)

theorem solid_clock : Solid t.clock := by
  refine ⟨?_, ?_⟩
  · rcases t.clock_eq_cons with ⟨c, rest, eq, -⟩
    rw [eq]
    exact List.cons_ne_nil c rest
  · intro c mem
    have each : ∀ c ∈ "0123456789:".toList, isSpace c = false := forall_mem_of_all (by decide)
    exact each c (t.mem_clock mem)

section Written

variable {spelling : Meridiem → List Char} (named : ∀ m, spelling m ∈ meridiemSpellings)

include named

/-- The characters of a time in any spelling. -/
theorem mem_written {c : Char} (mem : c ∈ t.written spelling) : c ∈ timeCharacters := by
  rcases List.mem_append.mp mem with clock | half
  · have each : ∀ c ∈ "0123456789:".toList, c ∈ timeCharacters :=
      forall_mem_of_all (by decide)
    exact each c (t.mem_clock clock)
  · cases written : t.meridiem with
    | none =>
        rw [written] at half
        cases half
    | some m =>
        rw [written] at half
        rcases List.mem_append.mp half with blank | letter
        · rw [m.eq_of_mem_gap blank]
          decide
        · have each : ∀ c ∈ "apmAPM".toList, c ∈ timeCharacters := forall_mem_of_all (by decide)
          exact each c (mem_of_mem_meridiemSpellings (named m) c letter)

theorem spaced_written : Spaced (t.written spelling) := by
  unfold written
  cases t.meridiem with
  | none =>
      rw [Option.elim_none, List.append_nil]
      exact .word t.solid_clock
  | some m =>
      have solid := solid_of_mem_meridiemSpellings (named m)
      rw [Option.elim_some]
      unfold Meridiem.gap
      cases m.apart with
      | true => exact (Spaced.word t.solid_clock).blank (.word solid)
      | false => exact (Spaced.word t.solid_clock).append solid.2

/-- A time ends in a digit or in the `m` of its half of the day. -/
theorem getLast?_written {c : Char} (last : c ∈ (t.written spelling).getLast?) :
    c ∈ "0123456789:mM".toList := by
  unfold written at last
  cases half : t.meridiem with
  | none =>
      rw [half, Option.elim_none, List.append_nil] at last
      have each : ∀ c ∈ "0123456789:".toList, c ∈ "0123456789:mM".toList :=
        forall_mem_of_all (by decide)
      exact each c (t.mem_clock (List.mem_of_getLast? last))
  | some m =>
      have ends : ∀ letters ∈ meridiemSpellings,
          letters.getLast?.all (fun c => "0123456789:mM".toList.contains c) = true := by
        decide
      rw [half, Option.elim_some, ← List.append_assoc, List.getLast?_append_of_ne_nil _
        (solid_of_mem_meridiemSpellings (named m)).1] at last
      exact List.contains_iff_mem.mp ((Option.all_eq_true _ _).mp (ends _ (named m)) c last)

end Written

/-- Lowered letters are a spelling as well. -/
theorem lower_mem_meridiemSpellings (m : Meridiem) : m.lower ∈ meridiemSpellings := by
  have each : ∀ letters ∈ meridiemSpellings, letters.map Char.toLower ∈ meridiemSpellings := by
    decide
  exact each _ m.named

theorem spaced_text : Spaced t.text := t.spaced_written Meridiem.named

theorem spaced_lowerText : Spaced t.lowerText := t.spaced_written lower_mem_meridiemSpellings

/-- Lowering every letter lowers the time. -/
theorem map_toLower_text : t.text.map Char.toLower = t.lowerText := by
  have clock : t.clock.map Char.toLower = t.clock := by
    have each : ∀ c ∈ "0123456789:".toList, c.toLower = c := forall_mem_of_all (by decide)
    rw [List.map_congr_left (g := id) fun c mem => each c (t.mem_clock mem), List.map_id]
  unfold text lowerText written
  rw [List.map_append, clock]
  cases t.meridiem with
  | none => rfl
  | some m =>
      have gap : m.gap.map Char.toLower = m.gap := by
        unfold Meridiem.gap
        cases m.apart <;> rfl
      rw [Option.elim_some, Option.elim_some, List.map_append, gap]
      rfl

end WrittenTime

/-- Text of ASCII is lowered letter by letter. -/
theorem lowerText_of_ascii (u : Unicode) {cs : List Char} (ascii : ∀ c ∈ cs, isAscii c = true) :
    u.lowerText cs = cs.map Char.toLower := by
  rw [Unicode.lowerText, if_pos (List.all_eq_true.mpr ascii)]

theorem isAscii_of_mem_timeCharacters {c : Char} (mem : c ∈ timeCharacters) :
    isAscii c = true :=
  forall_mem_of_all (P := fun c => isAscii c = true) (by decide) c mem

/-! ## Reading a time -/

/-- `\s*(am|pm|noon|midday|midnight)` -/
def halfRx : Rx :=
  .seq (.many isSpace)
    (.group 2 (alts [lit "am", lit "pm", lit "noon", lit "midday", lit "midnight"]))

theorem marked_halfRx : halfRx.Marked (fun c => c == 'm' || c == 'n')
    (fun c => isSpace c || "ampnoidyght".toList.contains c) := by
  have words : ∀ w ∈ ["am", "pm", "noon", "midday", "midnight"],
      w.toList.any (fun c => c == 'm' || c == 'n') = true ∧
        w.toList.all (fun c => "ampnoidyght".toList.contains c) = true := by
    decide
  have split : ∀ cs, halfRx.Reads cs → ∃ blanks w, cs = blanks ++ w.toList ∧
      (∀ c ∈ blanks, isSpace c = true) ∧ w ∈ ["am", "pm", "noon", "midday", "midnight"] := by
    intro cs reads
    rcases reads.of_seq with ⟨blanks, named, rfl, spaces, half⟩
    cases half with
    | group half =>
        rcases half.of_alts (List.cons_ne_nil _ _) with ⟨option, mem, reads⟩
        have listed : option ∈ ["am", "pm", "noon", "midday", "midnight"].map lit := mem
        rcases List.mem_map.mp listed with ⟨w, chosen, rfl⟩
        exact ⟨blanks, w, by rw [reads.of_lit], spaces.of_many, chosen⟩
  refine ⟨fun cs reads => ?_, fun cs reads c mem => ?_⟩
  · rcases split cs reads with ⟨blanks, w, rfl, -, listed⟩
    rcases List.any_eq_true.mp (words w listed).1 with ⟨c, mem, mark⟩
    exact ⟨c, List.mem_append_right blanks mem, mark⟩
  · rcases split cs reads with ⟨blanks, w, rfl, spaces, listed⟩
    rcases List.mem_append.mp mem with blank | letter
    · rw [spaces c blank, Bool.true_or]
    · rw [List.all_eq_true.mp (words w listed).2 c letter, Bool.or_true]

/-- `re.fullmatch` ends here. -/
def ends (pos : Pos) : Option Pos := if pos.rest.isEmpty then some pos else none

section Half

variable {left : List Char} {groups : List (Nat × List Char)}

/-- No half begins with a character of a clock. -/
theorem half_none {d : Char} {more : List Char} (clock : d ∈ "0123456789:".toList) :
    (opt halfRx).run ends ⟨left, d :: more, groups⟩ = none := by
  have unread : halfRx.run ends ⟨left, d :: more, groups⟩ = none := by
    apply run_eq_none
    intro cs rest reads split
    rcases marked_halfRx.mark cs reads with ⟨c, mem, -⟩
    cases cs with
    | nil => cases mem
    | cons e cs =>
        have same : d = e := (List.cons.inj split).1
        have each : ∀ c ∈ "0123456789:".toList,
            (isSpace c || "ampnoidyght".toList.contains c) = false := forall_mem_of_all (by decide)
        have inside := marked_halfRx.inside _ reads e List.mem_cons_self
        rw [← same, each d clock] at inside
        cases inside
  rw [opt, Rx.run, unread, Option.none_or]
  rfl

theorem half_end : (opt halfRx).run ends ⟨left, [], groups⟩ = some ⟨left, [], groups⟩ := by
  rw [opt, Rx.run, marked_halfRx.run_eq_none_of_unmarked fun c mem => absurd mem List.not_mem_nil,
    Option.none_or]
  rfl

theorem half_found (m : Meridiem) : (opt halfRx).run ends ⟨left, m.gap ++ m.lower, groups⟩ =
    some ⟨m.lower.reverse ++ (m.gap.reverse ++ left), [], (2, m.lower) :: groups⟩ := by
  have lower : m.lower = ['a', 'm'] ∨ m.lower = ['p', 'm'] := by
    have each : ∀ letters ∈ meridiemSpellings, letters.map Char.toLower = ['a', 'm'] ∨
        letters.map Char.toLower = ['p', 'm'] := by
      decide
    exact each _ m.named
  have blank : ∀ c ∈ m.gap, isSpace c = true := by
    intro c mem
    rw [m.eq_of_mem_gap mem]
    decide
  have two (n : Nat) : n + 1 + 1 - n = 2 := by omega
  have taken : halfRx.run ends ⟨left, m.gap ++ m.lower, groups⟩ =
      some ⟨m.lower.reverse ++ (m.gap.reverse ++ left), [], (2, m.lower) :: groups⟩ := by
    apply manyFrom_append blank
    · intro c first
      rcases lower with am | pm
      · rw [am] at first
        cases first
        decide
      · rw [pm] at first
        cases first
        decide
    · rcases lower with am | pm
      · rw [am]
        simp [Rx.run, alts, lit, word, seqs, ends, Pos.since, two]
      · rw [pm]
        simp [Rx.run, alts, lit, word, seqs, ends, Pos.since, two]
  rw [opt, Rx.run, taken, Option.some_or]

end Half

namespace WrittenTime

variable (t : WrittenTime)

/-- The lazy group stops behind the clock. -/
theorem fullmatch_clock {tail : List Char} {found : Pos}
    (half : (opt halfRx).run ends ⟨t.clock.reverse, tail, [(1, t.clock)]⟩ = some found) :
    fullmatch naturalTimeRx (t.clock ++ tail) = some found := by
  rcases t.clock_eq_cons with ⟨c, rest, clock, -⟩
  have dots : ∀ d ∈ t.clock, dot d = true := by
    have each : ∀ d ∈ "0123456789:".toList, dot d = true := forall_mem_of_all (by decide)
    exact fun d mem => each d (t.mem_clock mem)
  have later : ∀ d ∈ rest, d ∈ t.clock := by
    intro d mem
    rw [clock]
    exact List.mem_cons_of_mem c mem
  let next : Pos → Option Pos := fun pos =>
    (opt halfRx).run ends
      { pos with groups := (1, Pos.since ⟨[], t.clock ++ tail, []⟩ pos) :: pos.groups }
  have unfolded : fullmatch naturalTimeRx (t.clock ++ tail) =
      if dot c then fewFrom dot next [] [c] (rest ++ tail) else none := by
    simp only [next, clock]
    rfl
  rw [unfolded, dots c (by rw [clock]; exact List.mem_cons_self), if_pos rfl]
  apply fewFrom_append
  · exact fun d mem => dots d (later d mem)
  · rintro a d b rfl
    exact half_none (t.mem_clock (later d (List.mem_append_right a List.mem_cons_self)))
  · have whole : Pos.since ⟨[], t.clock ++ tail, []⟩ ⟨t.clock.reverse, tail, []⟩ = t.clock := by
      rw [Pos.since, List.length_nil, Nat.sub_zero, List.take_length, List.reverse_reverse]
    have place : rest.reverse ++ [c] = t.clock.reverse := by rw [clock, List.reverse_cons]
    rw [place]
    simp only [next, whole]
    exact half

/-- The whole time is matched, with its groups. -/
theorem fullmatch_lowerText : ∃ found, fullmatch naturalTimeRx t.lowerText = some found ∧
    found.group 1 = some t.clock ∧ found.group 2 = t.meridiem.map Meridiem.lower := by
  unfold lowerText written
  cases t.meridiem with
  | none => exact ⟨_, t.fullmatch_clock half_end, rfl, rfl⟩
  | some m => exact ⟨_, t.fullmatch_clock (half_found m), rfl, rfl⟩

end WrittenTime

section Reading

variable (p : Platform)

/-- Text of ASCII that is spaced is lowered letter by letter. -/
theorem lowered_of_ascii {cs : List Char} (spaced : Spaced cs)
    (ascii : ∀ c ∈ cs, isAscii c = true) : lowered p cs = cs.map Char.toLower := by
  rw [lowered, spaced.strip, lowerText_of_ascii p.unicode ascii]

/-- A written time, stripped and lowered. -/
theorem lowered_text (t : WrittenTime) : lowered p t.text = t.lowerText := by
  rw [lowered_of_ascii p t.spaced_text, t.map_toLower_text]
  exact fun c mem => isAscii_of_mem_timeCharacters (t.mem_written Meridiem.named mem)

/-- Digits are a number within bounds. -/
theorem parseNaturalNumber_of_digits {cs : List Char} {maximum : Int} (some : cs ≠ [])
    (digits : ∀ c ∈ cs, c.isDigit = true) (short : cs.length ≤ intMaxStrDigits)
    (bound : decimalNumber cs ≤ maximum) :
    parseNaturalNumber p cs 0 maximum = .ok (decimalNumber cs) := by
  have decimal : ∀ c ∈ cs, isDigit c = true := fun c mem => isDigit_of_asciiDigit (digits c mem)
  have same : lowered p cs = cs := by
    have each : ∀ c ∈ "0123456789".toList,
        isSpace c = false ∧ isAscii c = true ∧ c.toLower = c := forall_mem_of_all (by decide)
    have plain := fun c mem => each c (mem_of_asciiDigit (digits c mem))
    rw [lowered_of_ascii p (.word ⟨some, fun c mem => (plain c mem).1⟩) fun c mem =>
      (plain c mem).2.1, List.map_congr_left (g := id) fun c mem => (plain c mem).2.2, List.map_id]
  have nonneg := decimalNumber_nonneg cs
  rw [parseNaturalNumber, same, naturalNumber, isInt_of_digits some decimal, if_pos rfl,
    toInt_of_digits decimal short]
  exact if_neg (by omega)

/-- The text is split at the first separator. -/
theorem splitOnce_append {c : Char} {front back : List Char} (none : c ∉ front) :
    splitOnce c (front ++ c :: back) = (front, back) := by
  induction front with
  | nil => exact splitOnce_cons_self c back
  | cons d front ih =>
      rcases not_or.mp (List.mem_cons.not.mp none) with ⟨other, none⟩
      rw [List.cons_append, splitOnce_cons_of_ne (Ne.symm other), ih none]

/-- The clock is read as the numbers it writes. -/
theorem parseClockText_clock (t : WrittenTime) (timeText : List Char)
    (short : t.clock.length ≤ intMaxStrDigits) : parseClockText p timeText t.clock =
      .ok (decimalNumber t.hour, t.minute.elim 0 decimalNumber) := by
  have noColon : ':' ∉ t.hour := by
    intro mem
    have digit := t.hourDigits.2 ':' mem
    revert digit
    decide
  unfold WrittenTime.clock at short ⊢
  rw [List.length_append] at short
  have hour : parseNaturalNumber p t.hour 0 24 = .ok (decimalNumber t.hour) :=
    parseNaturalNumber_of_digits p t.hourDigits.1 t.hourDigits.2 (by omega) t.hourBound
  cases written : t.minute with
  | none =>
      have solid : Solid t.hour := ⟨t.hourDigits.1, fun c mem => by
        have each : ∀ c ∈ "0123456789".toList, isSpace c = false := forall_mem_of_all (by decide)
        exact each c (mem_of_asciiDigit (t.hourDigits.2 c mem))⟩
      rw [Option.elim_none, List.append_nil, parseClockText, if_neg, words_of_solid solid]
      · dsimp only
        rw [hour]
        rfl
      · rw [List.contains_iff_mem]
        exact noColon
  | some m =>
      rw [written, Option.elim_some, List.length_cons] at short
      have minute : parseNaturalNumber p m 0 59 = .ok (decimalNumber m) :=
        parseNaturalNumber_of_digits p (t.minuteDigits m written).1 (t.minuteDigits m written).2
          (by omega) (t.minuteBound m written)
      rw [Option.elim_some, parseClockText, if_pos, splitOnce_append noColon, hour, minute]
      · rfl
      · rw [List.contains_iff_mem]
        exact List.mem_append_right _ List.mem_cons_self

theorem marked_oClockRx : oClockRx.Marked (· == 'k') (fun _ => true) := by
  refine ⟨fun cs reads => ?_, fun _ _ _ _ => rfl⟩
  rcases reads.of_seq with ⟨blanks, word, rfl, -, rest⟩
  rcases rest.of_seq with ⟨clock, stop, rfl, named, -⟩
  refine ⟨'k', ?_, rfl⟩
  rw [named.of_lit]
  exact List.mem_append_right _ (List.mem_append_left _ (by decide))

/-- `_parse_natural_time` of a clock time. -/
theorem parseNaturalTime_text (t : WrittenTime) (short : t.text.length ≤ intMaxStrDigits) :
    parseNaturalTime p t.text = .ok t.reading := by
  have silent : Silent oClockRx t.lowerText := marked_oClockRx.silent fun c mem => by
    have each : ∀ c ∈ timeCharacters, (c == 'k') = false := forall_mem_of_all (by decide)
    exact each c (t.mem_written WrittenTime.lower_mem_meridiemSpellings mem)
  have unnamed : ∀ w : List Char, w.head?.any Char.isDigit = false → t.lowerText ≠ w := by
    rintro w letter rfl
    rcases t.clock_eq_cons with ⟨c, rest, clock, digit⟩
    rw [WrittenTime.lowerText, WrittenTime.written, clock, List.cons_append, List.head?_cons,
      Option.any_some, digit] at letter
    cases letter
  rcases t.fullmatch_lowerText with ⟨found, matched, clock, half⟩
  have shortClock : t.clock.length ≤ intMaxStrDigits := by
    rw [WrittenTime.text, WrittenTime.written, List.length_append] at short
    omega
  unfold parseNaturalTime
  rw [lowered_text, t.spaced_lowerText.sub_spaces, silent.sub]
  dsimp only
  rw [if_neg, if_neg (unnamed _ (by decide)), matched]
  · dsimp only
    rw [clock, half, Option.getD_some, parseClockText_clock p t _ shortClock]
    rfl
  · rintro (noon | midday)
    · exact unnamed _ (by decide) noon
    · exact unnamed _ (by decide) midday

end Reading

end DjQueue.Crontab
