import Mathlib.Data.List.TakeWhile

/-!
# The pieces of a split list

What `List.splitOnP` cuts a list into, by the place of a piece: it begins the list or stands behind a
separator, and it goes on up to the next one.
-/

namespace Pieces

variable {α : Type} {p : α → Bool}

/-- Up to the first separator. -/
def first (p : α → Bool) (l : List α) : List α := l.takeWhile (fun c => !p c)

@[simp] theorem first_nil : first p [] = [] := rfl

theorem first_cons_of_neg {c : α} (l : List α) (keeps : p c = false) :
    first p (c :: l) = c :: first p l := by
  rw [first, List.takeWhile_cons_of_pos (by rw [keeps]; rfl)]
  rfl

theorem not_separator_of_mem_first {c : α} {l : List α} (mem : c ∈ first p l) : p c = false := by
  have kept := List.mem_takeWhile_imp mem
  simpa using kept

/-- A list without separators is its first piece. -/
theorem first_eq_self {l : List α} (keeps : ∀ c ∈ l, p c = false) : first p l = l :=
  List.takeWhile_eq_self_iff.mpr fun c mem => by rw [keeps c mem]; rfl

/-- The first piece ends at the separator. -/
theorem first_append {a b : List α} {c : α} (keeps : ∀ x ∈ a, p x = false) (separator : p c = true) :
    first p (a ++ c :: b) = a := by
  rw [first, List.takeWhile_append_of_pos fun x mem => by rw [keeps x mem]; rfl,
    List.takeWhile_cons_of_neg (by rw [separator]; exact Bool.false_ne_true), List.append_nil]

/-- The list goes on behind the first piece with a separator, if it goes on. -/
theorem split_first (l : List α) : l = first p l ∨
    ∃ c b, l = first p l ++ c :: b ∧ p c = true := by
  induction l with
  | nil => exact .inl rfl
  | cons c l ih =>
      cases keeps : p c with
      | true =>
          refine .inr ⟨c, l, ?_, keeps⟩
          rw [first, List.takeWhile_cons_of_neg (by rw [keeps]; exact Bool.false_ne_true)]
          rfl
      | false =>
          rw [first_cons_of_neg l keeps]
          rcases ih with whole | ⟨c', b, split, separator⟩
          · exact .inl (congrArg _ whole)
          · exact .inr ⟨c', b, congrArg _ split, separator⟩

/-- The first piece, then those behind a separator. -/
theorem splitOnP_eq (l : List α) : ∃ rest, l.splitOnP p = first p l :: rest ∧
    ∀ piece ∈ rest, ∃ a c b, l = a ++ c :: b ∧ p c = true ∧ piece = first p b := by
  induction l with
  | nil => exact ⟨[], rfl, fun piece mem => absurd mem List.not_mem_nil⟩
  | cons c l ih =>
      rcases ih with ⟨rest, split, each⟩
      rw [List.splitOnP_cons_eq_if_modifyHead, split]
      cases keeps : p c with
      | true =>
          refine ⟨first p l :: rest, ?_, ?_⟩
          · rw [if_pos rfl, first, first,
              List.takeWhile_cons_of_neg (by rw [keeps]; exact Bool.false_ne_true)]
          · intro piece mem
            rcases List.mem_cons.mp mem with rfl | later
            · exact ⟨[], c, l, rfl, keeps, rfl⟩
            · rcases each piece later with ⟨a, c', b, rfl, separator, same⟩
              exact ⟨c :: a, c', b, rfl, separator, same⟩
      | false =>
          refine ⟨rest, ?_, ?_⟩
          · rw [if_neg Bool.false_ne_true, List.modifyHead_cons, first_cons_of_neg l keeps]
          · intro piece mem
            rcases each piece mem with ⟨a, c', b, rfl, separator, same⟩
            exact ⟨c :: a, c', b, rfl, separator, same⟩

theorem not_separator_of_mem {l piece : List α} (mem : piece ∈ l.splitOnP p) {c : α}
    (inside : c ∈ piece) : p c = false := by
  rcases splitOnP_eq (p := p) l with ⟨rest, split, each⟩
  rw [split] at mem
  rcases List.mem_cons.mp mem with rfl | later
  · exact not_separator_of_mem_first inside
  · rcases each piece later with ⟨a, c', b, -, -, rfl⟩
    exact not_separator_of_mem_first inside

theorem mem_of_mem {l piece : List α} (mem : piece ∈ l.splitOnP p) {c : α} (inside : c ∈ piece) :
    c ∈ l := by
  rcases splitOnP_eq (p := p) l with ⟨rest, split, each⟩
  rw [split] at mem
  rcases List.mem_cons.mp mem with rfl | later
  · exact (List.takeWhile_subset _) inside
  · rcases each piece later with ⟨a, c', b, rfl, -, rfl⟩
    exact List.mem_append_right _ (List.mem_cons_of_mem _ ((List.takeWhile_subset _) inside))

/-- An element that is no separator stands in a piece, with what follows it up to the next one. -/
theorem exists_piece {a b : List α} {x : α} (keeps : p x = false) :
    ∃ before, before ++ x :: first p b ∈ (a ++ x :: b).splitOnP p := by
  induction a with
  | nil =>
      rcases splitOnP_eq (p := p) (x :: b) with ⟨rest, split, -⟩
      refine ⟨[], ?_⟩
      rw [List.nil_append, List.nil_append, split, first_cons_of_neg b keeps]
      exact List.mem_cons_self
  | cons c a ih =>
      rcases ih with ⟨before, mem⟩
      rw [List.cons_append, List.splitOnP_cons_eq_if_modifyHead]
      split
      · exact ⟨before, List.mem_cons_of_mem _ mem⟩
      · cases pieces : (a ++ x :: b).splitOnP p with
        | nil => exact absurd pieces (List.splitOnP_ne_nil p _)
        | cons head rest =>
            rw [pieces] at mem
            rw [List.modifyHead_cons]
            rcases List.mem_cons.mp mem with rfl | later
            · exact ⟨c :: before, List.mem_cons_self⟩
            · exact ⟨before, List.mem_cons_of_mem _ later⟩

/-- What stands before the first of two kinds of separators. -/
theorem first_first {q : α → Bool} (apart : ∀ c, q c = true → p c = false) {l : List α}
    (keeps : ∀ c ∈ first q l, p c = false) : first q (first p l) = first q l := by
  induction l with
  | nil => rfl
  | cons c l ih =>
      cases separator : q c with
      | true =>
          have none (l : List α) : first q (c :: l) = [] := by
            rw [first, List.takeWhile_cons_of_neg (by rw [separator]; exact Bool.false_ne_true)]
          rw [first_cons_of_neg l (apart c separator), none, none]
      | false =>
          rw [first_cons_of_neg l separator] at keeps ⊢
          rw [first_cons_of_neg l (keeps c List.mem_cons_self), first_cons_of_neg _ separator,
            ih fun d mem => keeps d (List.mem_cons_of_mem _ mem)]

theorem first_mem (l : List α) : first p l ∈ l.splitOnP p := by
  rcases splitOnP_eq (p := p) l with ⟨rest, split, -⟩
  rw [split]
  exact List.mem_cons_self

end Pieces
