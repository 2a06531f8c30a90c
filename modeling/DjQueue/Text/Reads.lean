import DjQueue.Text.Regex

/-!
# What an expression can match

The texts an expression reads, whatever stands around them: a match takes one of these from the
text.  Expressions that look at a place only read nothing.
-/

namespace Regex

/-- The expression can match the text. -/
inductive Rx.Reads : Rx → List Char → Prop
  | empty : Reads .empty []
  | char {p : Char → Bool} {c : Char} (holds : p c = true) : Reads (.char p) [c]
  | many {p : Char → Bool} {cs : List Char} (all : ∀ c ∈ cs, p c = true) : Reads (.many p) cs
  | few {p : Char → Bool} {cs : List Char} (all : ∀ c ∈ cs, p c = true) : Reads (.few p) cs
  | seq {a b : Rx} {cs ds : List Char} (first : Reads a cs) (second : Reads b ds) :
      Reads (.seq a b) (cs ++ ds)
  | left {a b : Rx} {cs : List Char} (reads : Reads a cs) : Reads (.alt a b) cs
  | right {a b : Rx} {cs : List Char} (reads : Reads b cs) : Reads (.alt a b) cs
  | group {n : Nat} {a : Rx} {cs : List Char} (reads : Reads a cs) : Reads (.group n a) cs
  | ahead {a : Rx} : Reads (.ahead a) []
  | boundary {word : Char → Bool} : Reads (.boundary word) []
  | stop : Reads .stop []

/-- A match from a place takes this text and goes on from behind it. -/
structure Takes (a : Rx) (k : Pos → Option Pos) (pos found : Pos) (cs : List Char) : Prop where
  reads : a.Reads cs
  goesOn : ∃ pos', pos.rest = cs ++ pos'.rest ∧ k pos' = some found

section Runs

variable {p : Char → Bool} {k : Pos → Option Pos} {found : Pos} {groups : List (Nat × List Char)}

/-- What a greedy repetition consumed. -/
theorem takes_of_manyFrom : ∀ {left rest : List Char}, manyFrom p k groups left rest = some found →
    ∃ cs pos', (∀ c ∈ cs, p c = true) ∧ rest = cs ++ pos'.rest ∧ k pos' = some found
  | left, [], run => ⟨[], _, fun c mem => absurd mem List.not_mem_nil, rfl, run⟩
  | left, c :: rest, run => by
      rw [manyFrom] at run
      split at run
      · rename_i holds
        rcases Option.or_eq_some_iff.mp run with more | ⟨-, enough⟩
        · rcases takes_of_manyFrom more with ⟨cs, pos', all, split, goesOn⟩
          refine ⟨c :: cs, pos', ?_, congrArg _ split, goesOn⟩
          intro d mem
          rcases List.mem_cons.mp mem with rfl | later
          · exact holds
          · exact all d later
        · exact ⟨[], _, fun c mem => absurd mem List.not_mem_nil, rfl, enough⟩
      · exact ⟨[], _, fun c mem => absurd mem List.not_mem_nil, rfl, run⟩

theorem takes_of_fewFrom : ∀ {left rest : List Char}, fewFrom p k groups left rest = some found →
    ∃ cs pos', (∀ c ∈ cs, p c = true) ∧ rest = cs ++ pos'.rest ∧ k pos' = some found
  | left, [], run => ⟨[], _, fun c mem => absurd mem List.not_mem_nil, rfl, run⟩
  | left, c :: rest, run => by
      rw [fewFrom] at run
      split at run
      · rename_i holds
        rcases Option.or_eq_some_iff.mp run with enough | ⟨-, more⟩
        · exact ⟨[], _, fun c mem => absurd mem List.not_mem_nil, rfl, enough⟩
        · rcases takes_of_fewFrom more with ⟨cs, pos', all, split, goesOn⟩
          refine ⟨c :: cs, pos', ?_, congrArg _ split, goesOn⟩
          intro d mem
          rcases List.mem_cons.mp mem with rfl | later
          · exact holds
          · exact all d later
      · exact ⟨[], _, fun c mem => absurd mem List.not_mem_nil, rfl, run⟩

/-- A match takes a text the expression reads. -/
theorem takes_of_run {a : Rx} {k : Pos → Option Pos} {pos found : Pos}
    (run : a.run k pos = some found) : ∃ cs, Takes a k pos found cs := by
  induction a generalizing k pos with
  | empty => exact ⟨[], .empty, pos, rfl, run⟩
  | char p =>
      cases rest : pos.rest with
      | nil =>
          rw [Rx.run, rest] at run
          cases run
      | cons c more =>
          rw [Rx.run, rest] at run
          dsimp only at run
          split at run
          · rename_i holds
            exact ⟨[c], .char holds, ⟨c :: pos.left, more, pos.groups⟩, rest, run⟩
          · cases run
  | many p =>
      rcases takes_of_manyFrom run with ⟨cs, pos', all, split, goesOn⟩
      exact ⟨cs, .many all, pos', split, goesOn⟩
  | few p =>
      rcases takes_of_fewFrom run with ⟨cs, pos', all, split, goesOn⟩
      exact ⟨cs, .few all, pos', split, goesOn⟩
  | seq a b iha ihb =>
      rcases iha run with ⟨cs, first, pos', split, second⟩
      rcases ihb second with ⟨ds, reads, pos'', split', goesOn⟩
      exact ⟨cs ++ ds, .seq first reads, pos'', by rw [split, split', List.append_assoc], goesOn⟩
  | alt a b iha ihb =>
      rcases Option.or_eq_some_iff.mp run with left | ⟨-, right⟩
      · rcases iha left with ⟨cs, reads, goesOn⟩
        exact ⟨cs, .left reads, goesOn⟩
      · rcases ihb right with ⟨cs, reads, goesOn⟩
        exact ⟨cs, .right reads, goesOn⟩
  | group n a ih =>
      rcases ih run with ⟨cs, reads, pos', split, goesOn⟩
      exact ⟨cs, .group reads, { pos' with groups := (n, pos.since pos') :: pos'.groups }, split,
        goesOn⟩
  | ahead a =>
      rw [Rx.run] at run
      split at run
      · exact ⟨[], .ahead, pos, rfl, run⟩
      · cases run
  | boundary word =>
      rw [Rx.run] at run
      split at run
      · exact ⟨[], .boundary, pos, rfl, run⟩
      · cases run
  | stop =>
      rw [Rx.run] at run
      split at run
      · exact ⟨[], .stop, pos, rfl, run⟩
      · cases run

end Runs

/-- A match of the whole is read by the expression. -/
theorem reads_of_fullmatch {a : Rx} {text : List Char} {found : Pos}
    (run : fullmatch a text = some found) : a.Reads text := by
  rcases takes_of_run run with ⟨cs, reads, pos', split, goesOn⟩
  split at goesOn
  · rename_i done
    have split : text = cs ++ pos'.rest := split
    rw [List.isEmpty_iff.mp done, List.append_nil] at split
    rw [split]
    exact reads
  · cases goesOn

/-! ## What built expressions read -/

theorem Rx.Reads.of_some1 {p : Char → Bool} {cs : List Char} (reads : (some1 p).Reads cs) :
    cs ≠ [] ∧ ∀ c ∈ cs, p c = true := by
  rcases reads with - | - | - | - | @⟨_, _, ds, es, first, second⟩
  rcases first with - | holds
  rcases second with - | - | all
  refine ⟨by rintro ⟨⟩, fun c mem => ?_⟩
  rcases List.mem_append.mp mem with here | later
  · rw [List.mem_singleton.mp here]
    exact holds
  · exact all c later

theorem Rx.Reads.of_many {p : Char → Bool} {cs : List Char} (reads : (Rx.many p).Reads cs) :
    ∀ c ∈ cs, p c = true := by
  cases reads with
  | many all => exact all

theorem Rx.Reads.of_seq {a b : Rx} {cs : List Char} (reads : (Rx.seq a b).Reads cs) :
    ∃ ds es, cs = ds ++ es ∧ a.Reads ds ∧ b.Reads es := by
  cases reads with
  | seq first second => exact ⟨_, _, rfl, first, second⟩

theorem Rx.Reads.of_alts {options : List Rx} (some : options ≠ []) {cs : List Char}
    (reads : (alts options).Reads cs) : ∃ a ∈ options, a.Reads cs := by
  induction options with
  | nil => exact absurd rfl some
  | cons a rest ih =>
      cases rest with
      | nil => exact ⟨a, List.mem_cons_self, reads⟩
      | cons b rest =>
          cases reads with
          | left first => exact ⟨a, List.mem_cons_self, first⟩
          | right later =>
              rcases ih (List.cons_ne_nil b rest) later with ⟨option, mem, reads⟩
              exact ⟨option, List.mem_cons_of_mem a mem, reads⟩

theorem forall₂_of_reads_chars {same : Char → Char → Bool} {letters cs : List Char}
    (reads : (seqs (letters.map (fun c => .char (same c)))).Reads cs) :
    List.Forall₂ (fun letter c => same letter c = true) letters cs := by
  induction letters generalizing cs with
  | nil =>
      cases reads
      exact .nil
  | cons letter letters ih =>
      cases letters with
      | nil =>
          cases reads with
          | char holds => exact .cons holds .nil
      | cons next letters =>
          rcases reads.of_seq with ⟨ds, es, rfl, first, later⟩
          cases first with
          | char holds => exact .cons holds (ih later)

/-- A word is read as its letters. -/
theorem Rx.Reads.of_word {same : Char → Char → Bool} {w : String} {cs : List Char}
    (reads : (word same w).Reads cs) :
    List.Forall₂ (fun letter c => same letter c = true) w.toList cs :=
  forall₂_of_reads_chars reads

theorem Rx.Reads.of_lit {w : String} {cs : List Char} (reads : (lit w).Reads cs) :
    cs = w.toList := by
  have letters := reads.of_word
  clear reads
  generalize w.toList = ds at letters
  induction letters with
  | nil => rfl
  | cons same _ ih => rw [eq_of_beq same, ih]

theorem Rx.Reads.of_opt {a : Rx} {cs : List Char} (reads : (opt a).Reads cs) :
    a.Reads cs ∨ cs = [] := by
  cases reads with
  | left reads => exact .inl reads
  | right reads =>
      cases reads
      exact .inr rfl

end Regex
