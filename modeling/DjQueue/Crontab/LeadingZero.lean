import DjQueue.Text.Pieces
import DjQueue.Text.Reads
import DjQueue.Crontab.Printed
import DjQueue.Relational.Table

/-!
# A leading field for the seconds

Six words are read as five fields and a time zone when the last word is one, and as six fields
otherwise.  So `0 ` in front of a five-field expression changes nothing as long as the field for the
days of the week is not taken for a zone: `Z`, an offset, or what `ZoneInfo` says of it.
-/

namespace DjQueue.Crontab

open Regex

/-! ## Numerals -/

/-- Either sign of a number. -/
def isSign (c : Char) : Bool := c == '-' || c == '+'

/-- An integer is signs and digits, and not empty. -/
theorem chars_of_isInt {cs : List Char} (int : isInt cs = true) :
    cs ≠ [] ∧ ∀ c ∈ cs, isSign c = true ∨ isDigit c = true := by
  rcases Option.isSome_iff_exists.mp int with ⟨found, run⟩
  have reads : intRx.Reads cs := reads_of_fullmatch run
  rcases reads with - | - | - | - | @⟨_, _, sign, rest, first, second⟩
  rcases second with - | - | - | - | @⟨_, _, number, nothing, digits, last⟩
  cases last
  rcases digits.of_some1 with ⟨some, all⟩
  rw [List.append_nil]
  refine ⟨by simp [some], fun c mem => ?_⟩
  rcases List.mem_append.mp mem with front | back
  · rcases first.of_opt with signed | none
    · cases signed with
      | char holds => exact .inl (List.mem_singleton.mp front ▸ holds)
    · rw [none] at front
      cases front
  · exact .inr (all c back)

/-- Neither a point nor a slash. -/
theorem plain_of_isInt {cs : List Char} (int : isInt cs = true) {c : Char} (mem : c ∈ cs) :
    c ≠ '/' ∧ c ≠ '.' := by
  rcases (chars_of_isInt int).2 c mem with sign | digit
  · constructor <;> (rintro rfl; revert sign; decide)
  · constructor <;> (rintro rfl; revert digit; decide)

/-! ## What may follow a slash -/

/-- `str.upper` and `str.lower` leave a slash where it is. -/
def KeepsSlashes (u : Unicode) : Prop :=
  ∀ cs, '/' ∈ cs → '/' ∈ u.upper cs ∧ '/' ∈ u.lower cs

/-- A path that steps nowhere begins with one of these. -/
def isDots (part : List Char) : Bool := part == ['.'] || part == ['.', '.']

/-- A slash is followed by a character that neither ends a part of a path nor steps in it. -/
structure StepsPlainly (cs : List Char) : Prop where
  follows : ∀ a b, cs = a ++ '/' :: b → ∃ c rest, b = c :: rest ∧ c ≠ '/' ∧ c ≠ '.'
  begins : isDots (Pieces.first (· == '/') cs) = false

/-- Text without a slash has nothing behind one. -/
theorem follows_of_no_slash {cs : List Char} (none : '/' ∉ cs) :
    ∀ a b, cs = a ++ '/' :: b → ∃ c rest, b = c :: rest ∧ c ≠ '/' ∧ c ≠ '.' := by
  rintro a b rfl
  exact absurd (List.mem_append_right a List.mem_cons_self) none

/-- Text without a slash walks up no directory. -/
theorem stepsPlainly_of_no_slash {cs : List Char} (none : '/' ∉ cs) (begins : isDots cs = false) :
    StepsPlainly cs := by
  refine ⟨follows_of_no_slash none, ?_⟩
  rw [Pieces.first_eq_self]
  · exact begins
  · intro c mem
    exact beq_eq_false_iff_ne.mpr fun same => none (same ▸ mem)

section Items

variable {p : Platform}

theorem slash_mem_upperText (keeps : KeepsSlashes p.unicode) {cs : List Char} (mem : '/' ∈ cs) :
    '/' ∈ p.unicode.upperText cs := by
  unfold Unicode.upperText
  split
  · exact List.mem_map.mpr ⟨'/', mem, by decide⟩
  · exact (keeps cs mem).1

theorem slash_mem_lowerText (keeps : KeepsSlashes p.unicode) {cs : List Char} (mem : '/' ∈ cs) :
    '/' ∈ p.unicode.lowerText cs := by
  unfold Unicode.lowerText
  split
  · exact List.mem_map.mpr ⟨'/', mem, by decide⟩
  · exact (keeps cs mem).2

theorem not_isInt_of_isDots {cs : List Char} (dots : isDots cs = true) : isInt cs = false := by
  cases int : isInt cs with
  | false => rfl
  | true =>
      have point : '.' ∈ cs := by
        rcases Bool.or_eq_true_iff.mp dots with one | two
        · rw [beq_iff_eq.mp one]
          exact List.mem_cons_self
        · rw [beq_iff_eq.mp two]
          exact List.mem_cons_self
      exact absurd rfl (plain_of_isInt int point).2

/-- No name holds a slash, and none is made of points. -/
theorem plain_of_named (keeps : KeepsSlashes p.unicode) {value : List Char} {n : Int}
    (named : weekdayNames.lookup (text (p.unicode.upperText value)) = some n) :
    '/' ∉ value ∧ isDots value = false := by
  have names : ∀ name ∈ weekdayNames.map Prod.fst, '/' ∉ name.toList ∧ '.' ∉ name.toList := by
    decide
  rcases List.lookup_eq_some_iff.mp named with ⟨before, after, split, -⟩
  have mem : text (p.unicode.upperText value) ∈ weekdayNames.map Prod.fst := by
    rw [split, List.map_append, List.map_cons]
    exact List.mem_append_right _ List.mem_cons_self
  have plain := names _ mem
  rw [text, String.toList_ofList] at plain
  refine ⟨fun slash => plain.1 (slash_mem_upperText keeps slash), ?_⟩
  cases dots : isDots value with
  | false => rfl
  | true =>
      rcases Bool.or_eq_true_iff.mp dots with one | two
      · rw [beq_iff_eq.mp one] at plain
        exact absurd (show '.' ∈ p.unicode.upperText ['.'] from List.mem_cons_self) plain.2
      · rw [beq_iff_eq.mp two] at plain
        exact absurd (show '.' ∈ p.unicode.upperText ['.', '.'] from List.mem_cons_self) plain.2

/-- A bound is a name or a numeral. -/
theorem plain_of_bound (keeps : KeepsSlashes p.unicode) {value : List Char} {n : Int}
    (ok : parseSimpleBound p weekdaysRule value = .ok n) : '/' ∉ value ∧ isDots value = false := by
  rcases bind_eq_ok ok with ⟨number, bound, -⟩
  unfold boundNumber at bound
  split at bound
  · rename_i n named
    exact plain_of_named keeps named
  · split at bound
    · rename_i int
      refine ⟨fun mem => (plain_of_isInt int mem).1 rfl, ?_⟩
      cases dots : isDots value with
      | false => rfl
      | true =>
          rw [not_isInt_of_isDots dots] at int
          cases int
    · cases bound

theorem splitOnce_cons_self (c : Char) (cs : List Char) : splitOnce c (c :: cs) = ([], cs) := by
  simp [splitOnce]

/-- The separator stands further back. -/
theorem splitOnce_cons_of_ne {c d : Char} (other : d ≠ c) (cs : List Char) :
    splitOnce c (d :: cs) = (d :: (splitOnce c cs).1, (splitOnce c cs).2) := by
  simp [splitOnce, other]

/-- The two halves with the separator between are the text. -/
theorem eq_of_splitOnce {c : Char} {cs : List Char} (mem : c ∈ cs) :
    cs = (splitOnce c cs).1 ++ c :: (splitOnce c cs).2 ∧ c ∉ (splitOnce c cs).1 := by
  induction cs with
  | nil => cases mem
  | cons d cs ih =>
      by_cases same : d = c
      · subst same
        rw [splitOnce_cons_self]
        exact ⟨rfl, List.not_mem_nil⟩
      · rw [splitOnce_cons_of_ne same]
        rcases ih ((List.mem_cons.mp mem).resolve_left (Ne.symm same)) with ⟨split, none⟩
        refine ⟨congrArg _ split, ?_⟩
        exact fun mem' => (List.mem_cons.mp mem').elim (Ne.symm same) none

/-- A step is an integer, and has no slash. -/
theorem plain_of_parseStep {value : List Char} {step : Int} (ok : parseStep value = .ok step) :
    value ≠ [] ∧ ∀ c ∈ value, c ≠ '/' ∧ c ≠ '.' := by
  unfold parseStep at ok
  split at ok
  · rename_i int
    exact ⟨(chars_of_isInt int).1, fun c mem => plain_of_isInt int mem⟩
  · cases ok

/-- The last slash of an item stands before the numeral of a step. -/
theorem follows_of_step {range step : List Char} (one : '/' ∉ range) (some : step ≠ [])
    (plain : ∀ c ∈ step, c ≠ '/' ∧ c ≠ '.') : ∀ a b, range ++ '/' :: step = a ++ '/' :: b →
      ∃ c rest, b = c :: rest ∧ c ≠ '/' ∧ c ≠ '.' := by
  intro a b split
  have none : '/' ∉ step := fun mem => (plain '/' mem).1 rfl
  rcases List.append_eq_append_iff.mp split with ⟨x, rfl, rest⟩ | ⟨x, rfl, rest⟩
  · cases x with
    | nil =>
        rcases List.cons.inj rest with ⟨-, rfl⟩
        cases step with
        | nil => exact absurd rfl some
        | cons c step => exact ⟨c, step, rfl, plain c List.mem_cons_self⟩
    | cons c x =>
        rcases List.cons.inj rest with ⟨-, rfl⟩
        exact absurd (List.mem_append_right x List.mem_cons_self) none
  · cases x with
    | nil =>
        rcases List.cons.inj rest with ⟨-, rfl⟩
        cases b with
        | nil => exact absurd rfl some
        | cons c b => exact ⟨c, b, rfl, plain c List.mem_cons_self⟩
    | cons c x =>
        rcases List.cons.inj rest with ⟨rfl, -⟩
        exact absurd (List.mem_append_right a List.mem_cons_self) one

theorem plain_of_itemRange (keeps : KeepsSlashes p.unicode) {rangeText : List Char} {stepped : Bool}
    {r : Int × Int × Bool} (ok : itemRange p weekdaysRule rangeText stepped = .ok r) :
    isDots rangeText = false := by
  unfold itemRange at ok
  split at ok
  · rename_i star
    rw [star]
    rfl
  · rcases bind_eq_ok ok with ⟨bounds, range, -⟩
    unfold parseSimpleRange at range
    split at range
    · rcases bind_eq_ok range with ⟨n, bound, -⟩
      exact (plain_of_bound keeps bound).2
    · rename_i ranged
      cases dots : isDots rangeText with
      | false => rfl
      | true =>
          rcases Bool.or_eq_true_iff.mp dots with one | two
          · rw [beq_iff_eq.mp one] at ranged
            exact absurd rfl ranged
          · rw [beq_iff_eq.mp two] at ranged
            exact absurd rfl ranged

/-- An item has one slash at most, and a step behind it. -/
theorem stepsPlainly_of_expandSimpleItem (keeps : KeepsSlashes p.unicode) {item : List Char}
    {r : List Int × Bool} (ok : expandSimpleItem p weekdaysRule item = .ok r) :
    StepsPlainly item := by
  rcases bind_eq_ok ok with ⟨⟨rangeText, step, stepped⟩, split, rest⟩
  rcases bind_eq_ok rest with ⟨bounds, range, -⟩
  have begins := plain_of_itemRange keeps range
  unfold splitStep at split
  split at split
  · rename_i slash
    rcases bind_eq_ok split with ⟨n, parsed, -⟩
    rcases plain_of_parseStep parsed with ⟨some, plain⟩
    cases item with
    | nil => cases slash
    | cons c tail =>
        cases slash
        exact ⟨follows_of_step List.not_mem_nil some plain, rfl⟩
  · split at split
    · rename_i none
      cases split
      apply stepsPlainly_of_no_slash _ begins
      intro mem
      rw [List.contains_iff_mem.mpr mem] at none
      cases none
    · rename_i here
      split at split
      · cases split
      · rcases bind_eq_ok split with ⟨n, parsed, same⟩
        cases same
        rcases plain_of_parseStep parsed with ⟨some, plain⟩
        have mem : '/' ∈ item := by
          rw [Bool.not_eq_true', Bool.not_eq_false] at here
          exact List.contains_iff_mem.mp here
        rcases eq_of_splitOnce mem with ⟨whole, none⟩
        refine ⟨?_, ?_⟩
        · rw [whole]
          exact follows_of_step none some plain
        · rw [whole, Pieces.first_append]
          · exact begins
          · intro c mem
            exact beq_eq_false_iff_ne.mpr fun same => none (same ▸ mem)
          · rfl

/-- Text with another character is not of dots only. -/
theorem isDots_eq_false {cs : List Char} {c : Char} (mem : c ∈ cs) (other : c ≠ '.') :
    isDots cs = false := by
  cases dots : isDots cs with
  | false => rfl
  | true =>
      rcases Bool.or_eq_true_iff.mp dots with one | two
      · rw [beq_iff_eq.mp one] at mem
        simp [other] at mem
      · rw [beq_iff_eq.mp two] at mem
        simp [other] at mem

theorem plain_of_parseHashNth (keeps : KeepsSlashes p.unicode) {value : List Char} {n : Int}
    (ok : parseHashNth p value = .ok n) : '/' ∉ value := by
  intro mem
  unfold parseHashNth at ok
  dsimp only at ok
  split at ok
  · rename_i last
    have kept := slash_mem_lowerText keeps mem
    rcases last with same | same
    · rw [same] at kept
      revert kept
      decide
    · rw [same] at kept
      revert kept
      decide
  · unfold parseHashIndex at ok
    split at ok
    · cases ok
    · rename_i int
      rw [Bool.not_eq_true', Bool.not_eq_false] at int
      exact (plain_of_isInt int mem).1 rfl

/-- The bound of a range has no slash. -/
theorem plain_of_parseWeekdayBound (keeps : KeepsSlashes p.unicode) {value : List Char} {n : Int}
    (ok : parseWeekdayBound p value = .ok n) : '/' ∉ value := by
  unfold parseWeekdayBound at ok
  cases bound : parseSimpleBound p weekdaysRule value with
  | error e =>
      rw [bound] at ok
      cases ok
  | ok m => exact (plain_of_bound keeps bound).1

theorem stepsPlainly_of_parseWeekdayHash (keeps : KeepsSlashes p.unicode) {item : List Char}
    (hash : '#' ∈ item) {spec : WeekdaySpec} (ok : parseWeekdayHash p item = .ok spec) :
    StepsPlainly item := by
  unfold parseWeekdayHash at ok
  split at ok
  · cases ok
  · rcases bind_eq_ok ok with ⟨day, bound, rest⟩
    rcases bind_eq_ok rest with ⟨nth, parsed, -⟩
    rcases eq_of_splitOnce hash with ⟨whole, -⟩
    apply stepsPlainly_of_no_slash _ (isDots_eq_false hash (by decide))
    intro mem
    rw [whole] at mem
    rcases List.mem_append.mp mem with front | back
    · exact plain_of_parseWeekdayBound keeps bound front
    · rcases List.mem_cons.mp back with same | back
      · cases same
      · exact plain_of_parseHashNth keeps parsed back

theorem plain_of_weekdayModulo {cs : List Char} (reads : weekdayModuloRx.Reads cs) : '/' ∉ cs := by
  have digits {ds : List Char} (reads : (some1 isDigit).Reads ds) : '/' ∉ ds := by
    intro mem
    have digit := reads.of_some1.2 '/' mem
    revert digit
    decide
  rcases reads with - | - | - | - | @⟨_, _, modulo, rest, first, second⟩
  rcases second with - | - | - | - | @⟨_, _, offset, nothing, added, last⟩
  cases last
  rw [List.append_nil]
  intro mem
  rcases List.mem_append.mp mem with front | back
  · cases first with
    | group reads => exact digits reads front
  · rcases added.of_opt with reads | none
    · rcases reads with - | - | - | - | @⟨_, _, plus, number, sign, group⟩
      rcases List.mem_append.mp back with here | later
      · cases sign with
        | char holds =>
            rw [← List.mem_singleton.mp here] at holds
            revert holds
            decide
      · cases group with
        | group reads => exact digits reads later
    · rw [none] at back
      cases back

theorem stepsPlainly_of_parseWeekdayModulo (keeps : KeepsSlashes p.unicode) {item : List Char}
    (percent : '%' ∈ item) {spec : WeekdaySpec} (ok : parseWeekdayModulo p item = .ok spec) :
    StepsPlainly item := by
  unfold parseWeekdayModulo at ok
  split at ok
  · cases ok
  · rcases eq_of_splitOnce percent with ⟨whole, -⟩
    dsimp only at ok
    split at ok
    · cases ok
    · rename_i found matched
      rcases bind_eq_ok ok with ⟨modulo, -, rest⟩
      rcases bind_eq_ok rest with ⟨offset, -, rest⟩
      split at rest
      · cases rest
      · rcases bind_eq_ok rest with ⟨day, bound, -⟩
        apply stepsPlainly_of_no_slash _ (isDots_eq_false percent (by decide))
        intro mem
        rw [whole] at mem
        rcases List.mem_append.mp mem with front | back
        · exact plain_of_parseWeekdayBound keeps bound front
        · rcases List.mem_cons.mp back with same | back
          · cases same
          · exact plain_of_weekdayModulo (reads_of_fullmatch matched) back

/-! ## A field -/

/-- Text without blanks is its own strip. -/
theorem strip_eq_self {cs : List Char} (solid : ∀ c ∈ cs, isSpace c = false) : strip cs = cs := by
  have kept : ∀ {ds : List Char}, (∀ c ∈ ds, isSpace c = false) → ds.dropWhile isSpace = ds := by
    intro ds solid
    cases ds with
    | nil => rfl
    | cons d ds =>
        rw [List.dropWhile_cons_of_neg]
        rw [solid d List.mem_cons_self]
        exact Bool.false_ne_true
  rw [strip, stripBy, kept solid, kept fun c mem => solid c (List.mem_reverse.mp mem),
    List.reverse_reverse]

/-- The items of a field without blanks are its pieces. -/
theorem mem_of_fieldItems {cs piece : List Char} {items : List (List Char)}
    (solid : ∀ c ∈ cs, isSpace c = false) (ok : fieldItems cs = .ok items)
    (mem : piece ∈ cs.splitOnP (· == ',')) (some : piece ≠ []) : piece ∈ items := by
  unfold fieldItems at ok
  dsimp only at ok
  split at ok
  · cases ok
  · cases ok
    have inside : ∀ c ∈ piece, isSpace c = false :=
      fun c here => solid c (Pieces.mem_of_mem mem here)
    refine List.mem_filter.mpr ⟨List.mem_map.mpr ⟨piece, mem, strip_eq_self inside⟩, ?_⟩
    cases piece with
    | nil => exact absurd rfl some
    | cons c piece => rfl

/-- A field without a comma is one item. -/
theorem fieldItems_of_one {item : List Char} {items : List (List Char)}
    (ok : fieldItems item = .ok items) (solid : ∀ c ∈ item, isSpace c = false) (some : item ≠ [])
    (one : ',' ∉ item) : item ∈ items := by
  apply mem_of_fieldItems solid ok _ some
  have whole := Pieces.first_mem (p := (· == ',')) item
  rwa [Pieces.first_eq_self] at whole
  intro c mem
  exact beq_eq_false_iff_ne.mpr fun same => one (same ▸ mem)

/-- Whatever an item of the field is, it has no slash but that of a step. -/
theorem stepsPlainly_of_parseWeekdayItem (keeps : KeepsSlashes p.unicode) {item : List Char}
    (solid : ∀ c ∈ item, isSpace c = false) (some : item ≠ []) (one : ',' ∉ item)
    {r : List WeekdaySpec × Bool} (ok : parseWeekdayItem p item = .ok r) : StepsPlainly item := by
  unfold parseWeekdayItem at ok
  split at ok
  · rename_i hash
    rcases bind_eq_ok ok with ⟨spec, parsed, -⟩
    exact stepsPlainly_of_parseWeekdayHash keeps (List.contains_iff_mem.mp hash) parsed
  · split at ok
    · rename_i percent
      rcases bind_eq_ok ok with ⟨spec, parsed, -⟩
      exact stepsPlainly_of_parseWeekdayModulo keeps (List.contains_iff_mem.mp percent) parsed
    · rcases bind_eq_ok ok with ⟨field, parsed, -⟩
      rcases bind_eq_ok parsed with ⟨items, cut, rest⟩
      rcases bind_eq_ok rest with ⟨expanded, each, -⟩
      have mem := fieldItems_of_one cut solid some one
      rcases Relational.exists_of_mem_left (Relational.forall₂_of_mapM_ok each) mem with ⟨r, -, expands⟩
      exact stepsPlainly_of_expandSimpleItem keeps expands

/-- A field for the days of the week. -/
theorem stepsPlainly_of_parseWeekdayField (keeps : KeepsSlashes p.unicode) {cs : List Char}
    (solid : ∀ c ∈ cs, isSpace c = false) (some : cs ≠ []) {field : WeekdayField}
    (ok : parseWeekdayField p cs = .ok field) : StepsPlainly cs := by
  rcases bind_eq_ok ok with ⟨items, cut, rest⟩
  rcases bind_eq_ok rest with ⟨parsed, each, -⟩
  have item {piece : List Char} (mem : piece ∈ cs.splitOnP (· == ',')) (some : piece ≠ []) :
      StepsPlainly piece := by
    rcases Relational.exists_of_mem_left (Relational.forall₂_of_mapM_ok each)
      (mem_of_fieldItems solid cut mem some) with ⟨r, -, expands⟩
    apply stepsPlainly_of_parseWeekdayItem keeps _ some _ expands
    · exact fun c here => solid c (Pieces.mem_of_mem mem here)
    · intro comma
      have keeps := Pieces.not_separator_of_mem mem comma
      cases keeps
  refine ⟨?_, ?_⟩
  · rintro a b rfl
    rcases Pieces.exists_piece (p := (· == ',')) (a := a) (b := b) (x := '/') rfl with
      ⟨before, mem⟩
    rcases (item mem (by simp)).follows _ _ rfl with ⟨c, rest, same, plain⟩
    rcases Pieces.split_first (p := (· == ',')) b with whole | ⟨comma, more, split, -⟩
    · rw [whole, same]
      exact ⟨c, rest, rfl, plain⟩
    · rw [split, same]
      exact ⟨c, rest ++ comma :: more, rfl, plain⟩
  · cases dots : isDots (Pieces.first (· == '/') cs) with
    | false => rfl
    | true =>
        have commaless : ∀ c ∈ Pieces.first (· == '/') cs, (c == ',') = false := by
          rcases Bool.or_eq_true_iff.mp dots with one | two
          · rw [beq_iff_eq.mp one]
            simp
          · rw [beq_iff_eq.mp two]
            simp
        have same : Pieces.first (· == '/') (Pieces.first (· == ',') cs) =
            Pieces.first (· == '/') cs := by
          apply Pieces.first_first _ commaless
          intro c slash
          rw [beq_iff_eq.mp slash]
          rfl
        have begins := (item (Pieces.first_mem cs) (by
          intro none
          rw [none] at same
          rw [← same] at dots
          cases dots)).begins
        rw [same, dots] at begins
        cases begins

end Items

/-! ## Keys of zones -/

/-- A relative path without empty parts, and without steps that lead nowhere or back. -/
def NormalisedKey (key : List Char) : Prop :=
  ∀ part ∈ key.splitOnP (· == '/'), part ≠ [] ∧ isDots part = false

instance (key : List Char) : Decidable (NormalisedKey key) :=
  inferInstanceAs (Decidable (∀ part ∈ _, _))

/-- Such a text is a normalised key unless it is absolute. -/
theorem StepsPlainly.normalisedKey {cs : List Char} (steps : StepsPlainly cs) (some : cs ≠ [])
    (relative : cs.head? ≠ .some '/') : NormalisedKey cs := by
  intro part mem
  rcases Pieces.splitOnP_eq (p := (· == '/')) cs with ⟨rest, split, each⟩
  rw [split] at mem
  rcases List.mem_cons.mp mem with rfl | later
  · refine ⟨?_, steps.begins⟩
    cases cs with
    | nil => exact absurd rfl some
    | cons c cs =>
        have keeps : (c == '/') = false :=
          beq_eq_false_iff_ne.mpr fun same => relative (congrArg Option.some same)
        rw [Pieces.first_cons_of_neg (p := (· == '/')) cs keeps]
        exact List.cons_ne_nil _ _
  · rcases each part later with ⟨a, slash, b, whole, separator, rfl⟩
    rw [beq_iff_eq.mp separator] at whole
    rcases steps.follows a b whole with ⟨c, rest, rfl, plain⟩
    have keeps : (c == '/') = false := beq_eq_false_iff_ne.mpr plain.1
    rw [Pieces.first_cons_of_neg (p := (· == '/')) rest keeps]
    exact ⟨List.cons_ne_nil _ _, isDots_eq_false List.mem_cons_self plain.2⟩

/-- With the `&` that a day field may end in. -/
theorem StepsPlainly.and {cs : List Char} (steps : StepsPlainly cs) :
    StepsPlainly (cs ++ ['&']) := by
  refine ⟨?_, ?_⟩
  · intro a b split
    rcases List.eq_nil_or_concat b with rfl | ⟨b, last, rfl⟩
    · have ends := congrArg List.getLast? split
      simp at ends
    · rw [List.concat_eq_append, ← List.cons_append, ← List.append_assoc] at split
      rcases List.append_inj' split rfl with ⟨same, tail⟩
      rcases steps.follows a b same with ⟨c, rest, rfl, plain⟩
      exact ⟨c, rest ++ [last], by rw [List.concat_eq_append, List.cons_append], plain⟩
  · rcases Pieces.split_first (p := (· == '/')) cs with whole | ⟨slash, b, split, separator⟩
    · have none : ∀ c ∈ cs ++ ['&'], (c == '/') = false := by
        intro c mem
        rcases List.mem_append.mp mem with inside | last
        · rw [whole] at inside
          exact Pieces.not_separator_of_mem_first (p := (· == '/')) inside
        · rw [List.mem_singleton.mp last]
          rfl
      rw [Pieces.first_eq_self none]
      exact isDots_eq_false (List.mem_append_right cs (List.mem_singleton_self '&')) (by decide)
    · have same : Pieces.first (· == '/') (cs ++ ['&']) = Pieces.first (· == '/') cs := by
        conv_lhs => rw [split, List.append_assoc, List.cons_append]
        apply Pieces.first_append (p := (· == '/')) _ separator
        exact fun c mem => Pieces.not_separator_of_mem_first (p := (· == '/')) mem
      rw [same]
      exact steps.begins

/-! ## Schedules -/

section Schedules

variable (p : Platform)

/-- A word that is read as a field for the days of the week. -/
def WeekdayText (word : List Char) : Prop :=
  ∃ text dayAnd field, stripDayAnd word = .ok (text, dayAnd) ∧ parseWeekdayField p text = .ok field

variable {p}

/-- No such word makes a path that is not normal, besides an absolute one. -/
theorem normalisedKey_of_weekdayText (keeps : KeepsSlashes p.unicode) {word : List Char}
    (solid : Solid word) (weekday : WeekdayText p word) (relative : word.head? ≠ some '/') :
    NormalisedKey word := by
  rcases weekday with ⟨text, dayAnd, field, stripped, parsed⟩
  unfold stripDayAnd at stripped
  split at stripped
  · cases stripped
    exact (stepsPlainly_of_parseWeekdayField keeps solid.2 solid.1 parsed).normalisedKey solid.1
      relative
  · rename_i ends
    split at stripped
    · cases stripped
    · rename_i some
      cases stripped
      have some : word.dropLast ≠ [] := fun none => some (by rw [none]; rfl)
      have within : ∀ c ∈ word.dropLast, isSpace c = false :=
        fun c mem => solid.2 c ((List.dropLast_subset _) mem)
      have steps := (stepsPlainly_of_parseWeekdayField keeps within some parsed).and
      have whole : word.dropLast ++ ['&'] = word :=
        List.dropLast_append_getLast? '&' (Option.mem_def.mpr (Decidable.not_not.mp ends))
      rw [whole] at steps
      exact steps.normalisedKey solid.1 relative

theorem not_weekdayText_z : ¬ WeekdayText p ['Z'] := by
  rintro ⟨text, dayAnd, field, stripped, parsed⟩
  cases stripped
  have refused : (parseWeekdayField p ['Z']).toOption.isNone = true := rfl
  rw [parsed] at refused
  cases refused

/-- What a parsed schedule has of its parts. -/
theorem of_parseFields {seconds : Field} {minute hour monthday month weekday : List Char}
    {timezone : Option TzInfo} {s : Schedule}
    (ok : parseFields p seconds minute hour monthday month weekday timezone = .ok s) :
    s.seconds = seconds ∧ s.timezone = timezone ∧ WeekdayText p weekday := by
  rcases bind_eq_ok ok with ⟨⟨monthdayText, monthdayAnd⟩, -, rest⟩
  rcases bind_eq_ok rest with ⟨⟨weekdayText, weekdayAnd⟩, stripped, rest⟩
  rcases bind_eq_ok rest with ⟨minutes, -, rest⟩
  rcases bind_eq_ok rest with ⟨hours, -, rest⟩
  rcases bind_eq_ok rest with ⟨dayOfMonth, -, rest⟩
  rcases bind_eq_ok rest with ⟨months, -, rest⟩
  rcases bind_eq_ok rest with ⟨dayOfWeek, parsed, rest⟩
  rcases bind_eq_ok rest with ⟨u, -, rest⟩
  cases rest
  exact ⟨rfl, rfl, _, _, _, stripped, parsed⟩

/-- Five words are read as five fields. -/
theorem parseCronSchedule_five {p : Platform} {cs minute hour monthday month weekday : List Char}
    (five : words cs = [minute, hour, monthday, month, weekday]) : parseCronSchedule p cs =
      parseFields p ⟨IntSet.ofList [0], false⟩ minute hour monthday month weekday none := by
  rw [parseCronSchedule, splitCronSchedule, five]
  rfl

/-- Six words, by what the last one is taken for. -/
theorem parseCronSchedule_six {p : Platform} {cs second minute hour monthday month last : List Char}
    (six : words cs = [second, minute, hour, monthday, month, last]) : parseCronSchedule p cs =
      (parseTimezone p last false >>= fun timezone =>
        if timezone.isSome then
          parseFields p ⟨IntSet.ofList [0], false⟩ second minute hour monthday month timezone
        else parseSimpleField p secondsRule second >>= fun seconds =>
          parseFields p seconds minute hour monthday month last none) := by
  rw [parseCronSchedule, splitCronSchedule, six]
  cases zone : parseTimezone p last false with
  | error e =>
      simp [zone]
      rfl
  | ok timezone =>
      cases timezone with
      | none =>
          simp [zone]
          rfl
      | some tz =>
          simp [zone]
          rfl

theorem solid_of_mem_words {cs word : List Char} (mem : word ∈ words cs) : Solid word := by
  rcases List.mem_filter.mp mem with ⟨piece, some⟩
  refine ⟨?_, fun c inside => Pieces.not_separator_of_mem piece inside⟩
  rintro rfl
  cases some

theorem words_leadingZero (cs : List Char) : words ("0 ".toList ++ cs) = ['0'] :: words cs :=
  words_append ['0'] cs

/-- Six words whose first one is a zero, by what the last one is taken for. -/
theorem parseCronSchedule_leadingZero {p : Platform}
    {cs minute hour monthday month weekday : List Char}
    (five : words cs = [minute, hour, monthday, month, weekday]) :
    parseCronSchedule p ("0 ".toList ++ cs) = (parseTimezone p weekday false >>= fun timezone =>
      if timezone.isSome then
        parseFields p ⟨IntSet.ofList [0], false⟩ ['0'] minute hour monthday month timezone
      else parseCronSchedule p cs) := by
  have six : words ("0 ".toList ++ cs) = [['0'], minute, hour, monthday, month, weekday] := by
    rw [words_leadingZero, five]
  rw [parseCronSchedule_six six, parseCronSchedule_five five]
  rfl

/-- What the word for the days of the week is taken for behind a sixth one. -/
theorem parseTimezone_weekday {p : Platform} (keeps : KeepsSlashes p.unicode)
    (zones : ∀ key, NormalisedKey key → ∀ e, p.zoneInfo key ≠ .failed e)
    (unnamed : ∀ word, WeekdayText p word → ∀ z, p.zoneInfo word ≠ .found z) {word : List Char}
    (solid : Solid word) (weekday : WeekdayText p word) (relative : word.head? ≠ some '/')
    (noOffset : fullmatch offsetRx word = none) : parseTimezone p word false = .ok none := by
  have other : word ≠ ['Z'] := by
    rintro rfl
    exact not_weekdayText_z weekday
  unfold parseTimezone
  rw [if_neg other, noOffset]
  dsimp only
  cases looked : p.zoneInfo word with
  | found z => exact absurd looked (unnamed word weekday z)
  | notFound => rfl
  | failed e =>
      exact absurd looked (zones word (normalisedKey_of_weekdayText keeps solid weekday relative) e)

/-- An offset is a zone, or refused. -/
theorem parseTimezone_offset {p : Platform} {word : List Char} {found : Pos} {tz : Option TzInfo}
    (offset : fullmatch offsetRx word = some found) (ok : parseTimezone p word false = .ok tz) :
    tz ≠ none := by
  unfold parseTimezone at ok
  split at ok
  · cases ok
    exact Option.some_ne_none _
  · rw [offset] at ok
    dsimp only at ok
    split at ok
    · cases ok
      exact Option.some_ne_none _
    · cases ok

/-- A leading zero changes nothing, unless the field for the days of the week is written as an offset
from UTC: six words are five fields and a time zone then. -/
theorem leading_zero_seconds {p : Platform} (keeps : KeepsSlashes p.unicode)
    (zones : ∀ key, NormalisedKey key → ∀ e, p.zoneInfo key ≠ .failed e)
    (unnamed : ∀ word, WeekdayText p word → ∀ z, p.zoneInfo word ≠ .found z) {cs : List Char}
    {s : Schedule} (five : (words cs).length = 5) (accepted : parseCronSchedule p cs = .ok s) :
    s.seconds = ⟨IntSet.ofList [0], false⟩ ∧ s.timezone = none ∧
      (((words cs).getLastD []).head? ≠ some '/' →
        (parseCronSchedule p ("0 ".toList ++ cs) = .ok s ↔
          fullmatch offsetRx ((words cs).getLastD []) = none)) := by
  have shape : ∃ minute hour monthday month weekday,
      words cs = [minute, hour, monthday, month, weekday] := by
    generalize words cs = fields at five
    rcases fields with - | ⟨minute, - | ⟨hour, - | ⟨monthday, - | ⟨month, - | ⟨weekday, - | more⟩⟩⟩⟩⟩
    all_goals first | exact ⟨_, _, _, _, _, rfl⟩ | cases five
  rcases shape with ⟨minute, hour, monthday, month, weekday, five⟩
  have listed : weekday ∈ words cs := by
    rw [five]
    simp
  have solid : Solid weekday := solid_of_mem_words listed
  have parsed := accepted
  rw [parseCronSchedule_five five] at parsed
  rcases of_parseFields parsed with ⟨seconds, timezone, weekdayText⟩
  refine ⟨seconds, timezone, ?_⟩
  rw [parseCronSchedule_leadingZero five, five]
  intro relative
  constructor
  · intro same
    rcases bind_eq_ok same with ⟨tz, zone, rest⟩
    cases offset : fullmatch offsetRx weekday with
    | none => exact offset
    | some found =>
        cases tz with
        | none => exact absurd rfl (parseTimezone_offset offset zone)
        | some tz =>
            have aware := (of_parseFields rest).2.1
            rw [timezone] at aware
            cases aware
  · intro noOffset
    rw [parseTimezone_weekday keeps zones unnamed solid weekdayText relative noOffset]
    exact accepted

end Schedules

/-! ## Friday in another time zone -/

/-- A platform that refuses keys as `zoneinfo` does, and knows no zone. -/
def strictPlatform : Platform :=
  { plainPlatform with
    zoneInfo := fun key =>
      if NormalisedKey key then .notFound
      else .failed (.valueError "ZoneInfo keys must be normalized relative paths") }

theorem zones_strictPlatform (key : List Char) (normalised : NormalisedKey key) (e : PyError) :
    strictPlatform.zoneInfo key ≠ .failed e := by
  have missing : strictPlatform.zoneInfo key = .notFound := if_pos normalised
  rw [missing]
  exact nofun

theorem refused_strictPlatform (key : List Char) (other : ¬ NormalisedKey key) :
    ∃ message, strictPlatform.zoneInfo key = .failed (.valueError message) :=
  ⟨_, if_neg other⟩

theorem unnamed_strictPlatform (key : List Char) (z : ZoneInfo) :
    strictPlatform.zoneInfo key ≠ .found z := by
  unfold strictPlatform
  dsimp only
  split <;> exact nofun

/-- Whether there is a time zone in what a text is parsed to. -/
def readsZone (text : String) : Option Bool :=
  (parseCronSchedule strictPlatform text.toList).toOption.map (fun s => s.timezone.isSome)

theorem readsZone_of_ok {text : String} {s : Schedule}
    (ok : parseCronSchedule strictPlatform text.toList = .ok s) :
    readsZone text = some s.timezone.isSome := by
  rw [readsZone, ok]
  rfl

theorem parsed_of_readsZone {text : String} {zone : Bool} (reads : readsZone text = some zone) :
    ∃ s, parseCronSchedule strictPlatform text.toList = .ok s := by
  unfold readsZone at reads
  cases parsed : parseCronSchedule strictPlatform text.toList with
  | error e =>
      rw [parsed] at reads
      cases reads
  | ok s => exact ⟨s, rfl⟩

theorem keepsSlashes_strictPlatform : KeepsSlashes strictPlatform.unicode :=
  fun _ mem => ⟨mem, mem⟩

/-- At four on Fridays. -/
theorem leading_zero_seconds_friday :
    ∃ s, parseCronSchedule strictPlatform "0 4 * * fri".toList = .ok s ∧ s.timezone = none ∧
      parseCronSchedule strictPlatform "0 0 4 * * fri".toList = .ok s := by
  have five : readsZone "0 4 * * fri" = some false := by decide +kernel
  rcases parsed_of_readsZone five with ⟨s, accepted⟩
  rcases leading_zero_seconds keepsSlashes_strictPlatform zones_strictPlatform
    (fun word _ => unnamed_strictPlatform word) (by decide +kernel) accepted with
    ⟨-, timezone, same⟩
  exact ⟨s, accepted, timezone, (same (by decide +kernel)).mpr (by decide +kernel)⟩

/-- At four on Fridays; with a leading zero, at midnight of the fourth day of a month in a zone five
hours east. -/
theorem leading_zero_seconds_offset :
    ¬ ∀ (p : Platform), KeepsSlashes p.unicode →
      (∀ key, NormalisedKey key → ∀ e, p.zoneInfo key ≠ .failed e) →
      (∀ key, ¬ NormalisedKey key → ∃ message, p.zoneInfo key = .failed (.valueError message)) →
      (∀ word, WeekdayText p word → ∀ z, p.zoneInfo word ≠ .found z) →
      ∀ (cs : List Char) (s : Schedule), (words cs).length = 5 → parseCronSchedule p cs = .ok s →
        parseCronSchedule p ("0 ".toList ++ cs) = .ok s := by
  intro claimed
  have five : readsZone "0 4 * * +05" = some false := by decide +kernel
  have six : readsZone "0 0 4 * * +05" = some true := by decide +kernel
  rcases parsed_of_readsZone five with ⟨s, accepted⟩
  have same := claimed strictPlatform keepsSlashes_strictPlatform zones_strictPlatform
    refused_strictPlatform (fun word _ => unnamed_strictPlatform word) "0 4 * * +05".toList s
    (by decide +kernel) accepted
  have zone : readsZone "0 0 4 * * +05" = some s.timezone.isSome := readsZone_of_ok same
  rw [readsZone_of_ok accepted] at five
  rw [zone, five] at six
  cases six

end DjQueue.Crontab
