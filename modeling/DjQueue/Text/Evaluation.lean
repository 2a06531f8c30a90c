import DjQueue.Text.Reads

/-!
# Matching a known text

A text that is known piece by piece is split piece by piece: no match begins inside a piece, and the
match behind it is known.  That nothing matches follows from what the expression can read.
-/

namespace Regex

variable {r : Rx} {k : Pos → Option Pos} {p : Char → Bool} {left rest : List Char}
  {groups : List (Nat × List Char)}

/-! ## No match -/

/-- What no prefix is read from does not match. -/
theorem run_eq_none {pos : Pos} (unread : ∀ cs more, r.Reads cs → pos.rest = cs ++ more → False) :
    r.run k pos = none := by
  cases run : r.run k pos with
  | none => rfl
  | some found =>
      rcases takes_of_run run with ⟨cs, reads, pos', split, -⟩
      exact absurd split (unread cs pos'.rest reads)

/-- A text not read is no match of the whole. -/
theorem fullmatch_eq_none {text : List Char} (unread : ¬ r.Reads text) :
    fullmatch r text = none := by
  cases run : fullmatch r text with
  | none => rfl
  | some found => exact absurd (reads_of_fullmatch run) unread

/-- No match begins inside the piece, whatever stands before it. -/
def NoMatchIn (r : Rx) (piece rest : List Char) : Prop :=
  ∀ a c b, piece = a ++ c :: b → ∀ left, r.run some ⟨left, c :: b ++ rest, []⟩ = none

theorem NoMatchIn.nil : NoMatchIn r [] rest := by
  intro a c b split
  simp at split

/-- What is left of a piece without a match is without one. -/
theorem NoMatchIn.tail {c : Char} {piece : List Char} (quiet : NoMatchIn r (c :: piece) rest) :
    NoMatchIn r piece rest := by
  rintro a d b rfl
  exact quiet (c :: a) d b rfl

/-- What an expression reads holds a mark, and only characters that may stand in it. -/
structure Rx.Marked (r : Rx) (mark inside : Char → Bool) : Prop where
  mark : ∀ cs, r.Reads cs → ∃ c ∈ cs, mark c = true
  inside : ∀ cs, r.Reads cs → ∀ c ∈ cs, inside c = true

namespace Rx.Marked

variable {mark inside : Char → Bool} {text piece : List Char}

/-- A marked expression finds nothing in a text without its marks. -/
theorem run_eq_none_of_unmarked (marked : r.Marked mark inside)
    (unmarked : ∀ c ∈ text, mark c = false) : r.run k ⟨left, text, groups⟩ = none := by
  apply run_eq_none
  intro cs more reads split
  rcases marked.mark cs reads with ⟨c, mem, holds⟩
  have split : text = cs ++ more := split
  rw [unmarked c (split ▸ List.mem_append_left more mem)] at holds
  cases holds

theorem not_reads (marked : r.Marked mark inside) (unmarked : ∀ c ∈ text, mark c = false) :
    ¬ r.Reads text := by
  intro reads
  rcases marked.mark text reads with ⟨c, mem, holds⟩
  rw [unmarked c mem] at holds
  cases holds

/-- A piece without a mark, whose last character a match cannot go over. -/
theorem quiet (marked : r.Marked mark inside) (unmarked : ∀ c ∈ piece, mark c = false)
    (last : ∀ c ∈ piece.getLast?, inside c = false) : NoMatchIn r piece rest := by
  rintro a c b rfl left
  apply run_eq_none
  intro cs more reads split
  have split : (c :: b) ++ rest = cs ++ more := split
  rcases List.append_eq_append_iff.mp split with ⟨x, rfl, -⟩ | ⟨x, whole, -⟩
  · have ends : (c :: b).getLast (by simp) ∈ (a ++ c :: b).getLast? := by
      rw [List.getLast?_append_of_ne_nil _ (by simp), List.getLast?_eq_some_getLast (by simp)]
      rfl
    have mem : (c :: b).getLast (by simp) ∈ (c :: b) ++ x :=
      List.mem_append_left x (List.getLast_mem _)
    have crossed := marked.inside _ reads _ mem
    rw [last _ ends] at crossed
    cases crossed
  · rcases marked.mark cs reads with ⟨d, mem, holds⟩
    have inPiece : d ∈ a ++ c :: b := by
      rw [whole]
      exact List.mem_append_right a (List.mem_append_left x mem)
    rw [unmarked d inPiece] at holds
    cases holds

end Rx.Marked

/-! ## Searching and splitting -/

theorem searchFrom_of_run {found : Pos} (run : r.run some ⟨left, rest, []⟩ = some found) :
    searchFrom r left rest = some (left, found) := by
  cases rest with
  | nil => rw [searchFrom, run, Option.map_some]
  | cons c rest => rw [searchFrom, run, Option.map_some, Option.some_or]

theorem searchFrom_append {piece : List Char} (quiet : NoMatchIn r piece rest) :
    searchFrom r left (piece ++ rest) = searchFrom r (piece.reverse ++ left) rest := by
  induction piece generalizing left with
  | nil => rfl
  | cons c piece ih =>
      have here : r.run some ⟨left, c :: (piece ++ rest), []⟩ = none := quiet [] c piece rfl left
      rw [List.cons_append, searchFrom, here, Option.map_none, Option.none_or, ih quiet.tail,
        List.reverse_cons, List.append_assoc, List.singleton_append]

theorem splitFrom_append {piece : List Char} {fuel : Nat} {found : Pos}
    (quiet : NoMatchIn r piece rest)
    (run : r.run some ⟨piece.reverse ++ left, rest, []⟩ = some found) :
    splitFrom r (fuel + 1) left (piece ++ rest) =
      piece :: splitFrom r fuel found.left found.rest := by
  have taken : ((piece.reverse ++ left).take
      ((piece.reverse ++ left).length - left.length)).reverse = piece := by
    rw [List.length_append, Nat.add_sub_cancel, List.take_left, List.reverse_reverse]
  rw [splitFrom, searchFrom_append quiet, searchFrom_of_run run]
  dsimp only
  rw [taken]

/-- Nothing matches in the text, nor at its end. -/
structure Silent (r : Rx) (text : List Char) : Prop where
  quiet : NoMatchIn r text []
  atEnd : ∀ left, r.run some ⟨left, [], []⟩ = none

theorem Silent.searchFrom {text : List Char} (silent : Silent r text) :
    searchFrom r left text = none := by
  have moved : Regex.searchFrom r left (text ++ []) =
      Regex.searchFrom r (text.reverse ++ left) [] := searchFrom_append silent.quiet
  rw [List.append_nil] at moved
  rw [moved, Regex.searchFrom, silent.atEnd, Option.map_none]

theorem Silent.splitFrom {text : List Char} {fuel : Nat} (silent : Silent r text) :
    splitFrom r fuel left text = [text] := by
  cases fuel with
  | zero => rfl
  | succ fuel => rw [Regex.splitFrom, silent.searchFrom]

theorem Silent.sub {text new : List Char} (silent : Silent r text) : sub r new text = text := by
  rw [Regex.sub, split, silent.splitFrom, List.intercalate_singleton]

theorem Silent.search {text : List Char} (silent : Silent r text) : search r text = none := by
  rw [Regex.search, silent.searchFrom, Option.map_none]

/-- A text without the marks is silent. -/
theorem Rx.Marked.silent {mark inside : Char → Bool} (marked : r.Marked mark inside)
    {text : List Char} (unmarked : ∀ c ∈ text, mark c = false) : Silent r text := by
  refine ⟨?_, ?_⟩
  · rintro a c b rfl left
    apply marked.run_eq_none_of_unmarked
    rw [List.append_nil]
    exact fun d mem => unmarked d (List.mem_append_right a mem)
  · intro left
    exact marked.run_eq_none_of_unmarked fun c mem => absurd mem List.not_mem_nil

/-! ## Repetitions -/

/-- A greedy repetition takes the whole run of its characters, once what follows is content. -/
theorem manyFrom_append {cs : List Char} {found : Pos} (all : ∀ c ∈ cs, p c = true)
    (stops : ∀ c ∈ rest.head?, p c = false)
    (next : k ⟨cs.reverse ++ left, rest, groups⟩ = some found) :
    manyFrom p k groups left (cs ++ rest) = some found := by
  induction cs generalizing left with
  | nil =>
      cases rest with
      | nil => exact next
      | cons c rest =>
          rw [List.nil_append, manyFrom, stops c rfl, if_neg Bool.false_ne_true]
          exact next
  | cons c cs ih =>
      rw [List.reverse_cons, List.append_assoc, List.singleton_append] at next
      rw [List.cons_append, manyFrom, all c List.mem_cons_self, if_pos rfl,
        ih (fun d mem => all d (List.mem_cons_of_mem c mem)) next, Option.some_or]

/-- A lazy repetition stops at the first place where what follows matches. -/
theorem fewFrom_append {cs : List Char} {found : Pos} (all : ∀ c ∈ cs, p c = true)
    (earlier : ∀ a c b, cs = a ++ c :: b → k ⟨a.reverse ++ left, c :: b ++ rest, groups⟩ = none)
    (next : k ⟨cs.reverse ++ left, rest, groups⟩ = some found) :
    fewFrom p k groups left (cs ++ rest) = some found := by
  induction cs generalizing left with
  | nil =>
      have next : k ⟨left, rest, groups⟩ = some found := next
      cases rest with
      | nil => exact next
      | cons c rest =>
          rw [List.nil_append, fewFrom, next, Option.some_or, ite_self]
  | cons c cs ih =>
      have here : k ⟨left, c :: (cs ++ rest), groups⟩ = none := earlier [] c cs rfl
      rw [List.reverse_cons, List.append_assoc, List.singleton_append] at next
      rw [List.cons_append, fewFrom, all c List.mem_cons_self, if_pos rfl, here, Option.none_or]
      refine ih (fun d mem => all d (List.mem_cons_of_mem c mem)) ?_ next
      rintro a d b rfl
      have later := earlier (c :: a) d b rfl
      rw [List.reverse_cons, List.append_assoc, List.singleton_append] at later
      exact later

end Regex
