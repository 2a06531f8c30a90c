import DjQueue.Crontab.Times

/-!
# Lists of clock times

`9:30, 12am and 5 PM` is cut at its commas and its words `and` only, so that each part is one clock
time and none is lost.
-/

namespace DjQueue.Crontab

open Regex

/-! ## Lists as they are written -/

/-- What stands between two times. -/
inductive Joiner where
  | comma
  | and
deriving DecidableEq, Repr

/-- How it is written. -/
def Joiner.text : Joiner → List Char
  | .comma => ", ".toList
  | .and => " and ".toList

/-- Times of day, the first of them in front. -/
structure TimeList where
  first : WrittenTime
  rest : List (Joiner × WrittenTime)

/-- The other times, each behind its joiner. -/
def joinedText (rest : List (Joiner × WrittenTime)) : List Char :=
  rest.flatMap (fun x => x.1.text ++ x.2.text)

theorem joinedText_cons (x : Joiner × WrittenTime) (rest : List (Joiner × WrittenTime)) :
    joinedText (x :: rest) = x.1.text ++ (x.2.text ++ joinedText rest) := by
  rw [joinedText, List.flatMap_cons, List.append_assoc]
  rfl

namespace TimeList

variable (l : TimeList)

/-- The times with what joins them. -/
def text : List Char := l.first.text ++ joinedText l.rest

/-- The times of the list. -/
def times : List WrittenTime := l.first :: l.rest.map Prod.snd

end TimeList

/-- The characters a list is written in. -/
def listCharacters : List Char := "0123456789: apmAPM,nd".toList

/-- The characters of a time are among them. -/
theorem mem_listCharacters {c : Char} (mem : c ∈ timeCharacters) : c ∈ listCharacters :=
  forall_mem_of_all (P := fun c => c ∈ listCharacters) (by decide) c mem

theorem spaced_joinedText (t : WrittenTime) (rest : List (Joiner × WrittenTime)) :
    Spaced (t.text ++ joinedText rest) := by
  induction rest generalizing t with
  | nil =>
      rw [joinedText, List.flatMap_nil, List.append_nil]
      exact t.spaced_text
  | cons x rest ih =>
      have later := ih x.2
      rw [joinedText_cons, ← List.append_assoc]
      cases x.1 with
      | comma =>
          have front : Spaced (t.text ++ [',']) :=
            t.spaced_text.append (forall_mem_of_all (by decide))
          have whole := front.blank later
          rw [List.append_assoc] at whole ⊢
          exact whole
      | and =>
          have front : Spaced (t.text ++ ' ' :: "and".toList) :=
            t.spaced_text.blank (.word (solid_of_all rfl rfl))
          have whole := front.blank later
          rw [List.append_assoc] at whole ⊢
          exact whole

theorem mem_joinedText {rest : List (Joiner × WrittenTime)} {c : Char} (mem : c ∈ joinedText rest) :
    c ∈ listCharacters := by
  rcases List.mem_flatMap.mp mem with ⟨⟨joiner, t⟩, -, inside⟩
  rcases List.mem_append.mp inside with front | time
  · have each : ∀ c ∈ joiner.text, c ∈ listCharacters := by
      cases joiner <;> exact forall_mem_of_all (by decide)
    exact each c front
  · exact mem_listCharacters (t.mem_written Meridiem.named time)

namespace TimeList

variable (l : TimeList)

theorem spaced_text : Spaced l.text := spaced_joinedText l.first l.rest

theorem mem_text {c : Char} (mem : c ∈ l.text) : c ∈ listCharacters := by
  rcases List.mem_append.mp mem with first | later
  · exact mem_listCharacters (l.first.mem_written Meridiem.named first)
  · exact mem_joinedText later

end TimeList

/-! ## Cutting a list -/

section Cutting

variable (p : Platform)

/-- A letter is folded inside ASCII, or stands for one from outside. -/
theorem of_ignoreCase {u : Unicode} {letter c : Char} (same : u.ignoreCase letter c = true) :
    isAscii c = false ∨ c.toLower = letter.toLower := by
  unfold Unicode.ignoreCase at same
  split at same
  · exact .inr (eq_of_beq same).symm
  · rename_i foreign
    exact .inl (Bool.eq_false_iff.mpr foreign)

/-- Each letter of a word is read, and nothing else; beyond ASCII nothing is known. -/
theorem of_reads_word {u : Unicode} {w : String} {cs : List Char}
    (reads : (word u.ignoreCase w).Reads cs) :
    (∀ letter ∈ w.toList, ∃ c ∈ cs, isAscii c = false ∨ c.toLower = letter.toLower) ∧
      ∀ c ∈ cs, ∃ letter ∈ w.toList, isAscii c = false ∨ c.toLower = letter.toLower := by
  have letters := reads.of_word
  clear reads
  generalize w.toList = ls at letters
  induction letters with
  | nil => exact ⟨nofun, nofun⟩
  | cons same _ ih =>
      refine ⟨fun letter mem => ?_, fun c mem => ?_⟩
      · rcases List.mem_cons.mp mem with rfl | later
        · exact ⟨_, List.mem_cons_self, of_ignoreCase same⟩
        · rcases ih.1 letter later with ⟨c, inside, holds⟩
          exact ⟨c, List.mem_cons_of_mem _ inside, holds⟩
      · rcases List.mem_cons.mp mem with rfl | later
        · exact ⟨_, List.mem_cons_self, of_ignoreCase same⟩
        · rcases ih.2 c later with ⟨letter, inside, holds⟩
          exact ⟨letter, List.mem_cons_of_mem _ inside, holds⟩

/-- What every cut holds. -/
def cutMark (c : Char) : Bool := !isAscii c || [',', 'n', 'o'].contains c.toLower

/-- What may stand in a cut. -/
def cutInside (c : Char) : Bool :=
  !isAscii c || isSpace c || [',', 'a', 'n', 'd', 'o', 'r'].contains c.toLower

/-- A word between two boundaries is cut out. -/
theorem cut_of_reads_joined {w : String} (listed : w = "and" ∨ w = "or") {cs : List Char}
    (reads : (seqs [p.unicode.wordBoundary, word p.unicode.ignoreCase w,
      p.unicode.wordBoundary]).Reads cs) :
    (∃ c ∈ cs, cutMark c = true) ∧ ∀ c ∈ cs, cutInside c = true := by
  rcases reads.of_seq with ⟨before, rest, rfl, left, reads⟩
  rcases reads.of_seq with ⟨letters, after, rfl, named, right⟩
  cases left
  cases right
  rw [List.nil_append, List.append_nil]
  rcases of_reads_word named with ⟨each, only⟩
  have marks : w.toList.any (fun letter => [',', 'n', 'o'].contains letter.toLower) = true ∧
      w.toList.all (fun letter => [',', 'a', 'n', 'd', 'o', 'r'].contains letter.toLower) =
        true := by
    rcases listed with rfl | rfl <;> decide
  refine ⟨?_, fun c mem => ?_⟩
  · rcases List.any_eq_true.mp marks.1 with ⟨letter, mem, mark⟩
    rcases each letter mem with ⟨c, inside, foreign | same⟩
    · exact ⟨c, inside, by rw [cutMark, foreign]; rfl⟩
    · exact ⟨c, inside, by rw [cutMark, same, mark, Bool.or_true]⟩
  · rcases only c mem with ⟨letter, inside, foreign | same⟩
    · rw [cutInside, foreign]
      rfl
    · rw [cutInside, same, List.all_eq_true.mp marks.2 letter inside, Bool.or_true]

/-- What separates two times has a comma or a blank. -/
theorem marked_naturalListRx : (naturalListRx p).Marked cutMark cutInside := by
  have cut : ∀ cs, (naturalListRx p).Reads cs → ∃ before middle after,
      cs = before ++ middle ++ after ∧ (∀ c ∈ before, isSpace c = true) ∧
      (∀ c ∈ after, isSpace c = true) ∧
      (∃ c ∈ middle, cutMark c = true) ∧ ∀ c ∈ middle, cutInside c = true := by
    intro cs reads
    rcases reads.of_seq with ⟨before, rest, rfl, front, reads⟩
    rcases reads.of_seq with ⟨middle, after, rfl, chosen, back⟩
    refine ⟨before, middle, after, (List.append_assoc _ _ _).symm, front.of_many, back.of_many, ?_⟩
    cases chosen with
    | left comma =>
        rw [comma.of_lit]
        exact ⟨⟨',', List.mem_cons_self, by decide⟩, forall_mem_of_all (by decide)⟩
    | right other =>
        cases other with
        | left and => exact cut_of_reads_joined p (.inl rfl) and
        | right or => exact cut_of_reads_joined p (.inr rfl) or
  refine ⟨fun cs reads => ?_, fun cs reads c mem => ?_⟩
  · rcases cut cs reads with ⟨before, middle, after, rfl, -, -, ⟨c, mem, mark⟩, -⟩
    exact ⟨c, List.mem_append_left after (List.mem_append_right before mem), mark⟩
  · have blank {c : Char} (space : isSpace c = true) : cutInside c = true := by
      rw [cutInside, space, Bool.or_true, Bool.true_or]
    rcases cut cs reads with ⟨before, middle, after, rfl, front, back, -, inside⟩
    rcases List.mem_append.mp mem with mem | last
    · rcases List.mem_append.mp mem with first | middle
      · exact blank (front c first)
      · exact inside c middle
    · exact blank (back c last)

/-- A joiner is found where it stands. -/
theorem run_joiner (joiner : Joiner) {d : Char} (solid : isSpace d = false)
    (left more : List Char) : (naturalListRx p).run some ⟨left, joiner.text ++ d :: more, []⟩ =
      some ⟨joiner.text.reverse ++ left, d :: more, []⟩ := by
  have blank : isSpace ' ' = true := by decide
  have comma : isSpace ',' = false := by decide
  have a : isSpace 'a' = false := by decide
  cases joiner with
  | comma =>
      simp [Joiner.text, naturalListRx, seqs, alts, Rx.run, manyFrom, lit, word, blank, comma,
        solid]
  | and =>
      have letterA : p.unicode.ignoreCase 'a' 'a' = true := rfl
      have letterN : p.unicode.ignoreCase 'n' 'n' = true := rfl
      have letterD : p.unicode.ignoreCase 'd' 'd' = true := rfl
      have wordA : p.unicode.isWordChar 'a' = true := rfl
      have wordD : p.unicode.isWordChar 'd' = true := rfl
      have wordBlank : p.unicode.isWordChar ' ' = false := rfl
      simp [Joiner.text, naturalListRx, seqs, alts, Rx.run, manyFrom, lit, word, blank, a, solid,
        Unicode.wordBoundary, Pos.atBoundary, letterA, letterN, letterD, wordA, wordD, wordBlank]

/-- The first joiner is found behind the first time. -/
theorem run_joinedText (x : Joiner × WrittenTime) (rest : List (Joiner × WrittenTime))
    (left : List Char) : (naturalListRx p).run some ⟨left, joinedText (x :: rest), []⟩ =
      some ⟨x.1.text.reverse ++ left, x.2.text ++ joinedText rest, []⟩ := by
  rcases x.2.clock_eq_cons with ⟨d, more, clock, digit⟩
  have text : x.2.text ++ joinedText rest =
      d :: (more ++ x.2.meridiem.elim [] (fun m => m.gap ++ m.letters) ++ joinedText rest) := by
    rw [WrittenTime.text, WrittenTime.written, clock]
    rfl
  rw [joinedText_cons, text]
  exact run_joiner p x.1 (isSpace_of_isDigit digit) _ _

/-- The pieces between the cuts are the times. -/
theorem splitFrom_times (t : WrittenTime) (rest : List (Joiner × WrittenTime)) (fuel : Nat)
    (left : List Char) (enough : rest.length ≤ fuel) :
    splitFrom (naturalListRx p) fuel left (t.text ++ joinedText rest) =
      t.text :: rest.map (fun x => x.2.text) := by
  induction rest generalizing t fuel left with
  | nil =>
      have silent : Silent (naturalListRx p) t.text :=
        (marked_naturalListRx p).silent fun c mem => by
          have each : ∀ c ∈ timeCharacters, cutMark c = false := forall_mem_of_all (by decide)
          exact each c (t.mem_written Meridiem.named mem)
      rw [joinedText, List.flatMap_nil, List.append_nil, silent.splitFrom]
      rfl
  | cons x rest ih =>
      cases fuel with
      | zero => simp at enough
      | succ fuel =>
          have quiet : NoMatchIn (naturalListRx p) t.text (joinedText (x :: rest)) := by
            refine (marked_naturalListRx p).quiet (fun c mem => ?_) fun c last => ?_
            · have each : ∀ c ∈ timeCharacters, cutMark c = false := forall_mem_of_all (by decide)
              exact each c (t.mem_written Meridiem.named mem)
            · have each : ∀ c ∈ "0123456789:mM".toList, cutInside c = false :=
                forall_mem_of_all (by decide)
              exact each c (t.getLast?_written Meridiem.named last)
          rw [splitFrom_append quiet (run_joinedText p x rest _),
            ih x.2 fuel _ (Nat.le_of_succ_le_succ enough)]
          rfl

/-- Every joined time takes some characters. -/
theorem length_joinedText (rest : List (Joiner × WrittenTime)) :
    rest.length ≤ (joinedText rest).length := by
  induction rest with
  | nil => exact Nat.le_refl 0
  | cons x rest ih =>
      have some : 0 < x.1.text.length := by cases x.1 <;> decide
      rw [joinedText_cons, List.length_append, List.length_append, List.length_cons]
      omega

theorem naturalListParts_text (l : TimeList) (message : String) :
    naturalListParts p l.text message = .ok (l.times.map WrittenTime.text) := by
  have pieces : split (naturalListRx p) l.text = l.times.map WrittenTime.text := by
    have enough := length_joinedText l.rest
    rw [split, TimeList.text, splitFrom_times p l.first l.rest]
    · rw [TimeList.times, List.map_cons, List.map_map]
      rfl
    · rw [List.length_append]
      omega
  have stripped : (l.times.map WrittenTime.text).map strip = l.times.map WrittenTime.text := by
    rw [List.map_map]
    exact List.map_congr_left fun t _ => t.spaced_text.strip
  have kept : (l.times.map WrittenTime.text).filter (fun part => !part.isEmpty) =
      l.times.map WrittenTime.text := by
    apply List.filter_eq_self.mpr
    intro part mem
    rcases List.mem_map.mp mem with ⟨t, -, rfl⟩
    cases empty : t.text with
    | nil => exact absurd empty t.spaced_text.ne_nil
    | cons c rest => rfl
  rw [naturalListParts, pieces, stripped, kept]
  rfl

theorem parseNaturalTimes_text (l : TimeList) (short : l.text.length ≤ intMaxStrDigits) :
    parseNaturalTimes p l.text = .ok (l.times.map WrittenTime.reading) := by
  have each : ∀ t ∈ l.times, t.text.length ≤ l.text.length := by
    intro t mem
    rw [TimeList.text, List.length_append]
    rcases List.mem_cons.mp mem with rfl | later
    · omega
    · rcases List.mem_map.mp later with ⟨x, inside, rfl⟩
      rcases List.append_of_mem inside with ⟨before, after, split⟩
      rw [split, joinedText, List.flatMap_append, List.flatMap_cons]
      simp only [List.length_append]
      omega
  have read : (l.times.map WrittenTime.text).mapM (parseNaturalTime p) =
      .ok (l.times.map WrittenTime.reading) := by
    have bound (t : WrittenTime) (mem : t ∈ l.times) : t.text.length ≤ intMaxStrDigits :=
      Nat.le_trans (each t mem) short
    generalize l.times = times at bound
    induction times with
    | nil => rfl
    | cons t times ih =>
        rw [List.map_cons, List.mapM_cons, parseNaturalTime_text p t (bound t List.mem_cons_self),
          ih fun t mem => bound t (List.mem_cons_of_mem _ mem)]
        rfl
  rw [parseNaturalTimes, naturalListParts_text]
  dsimp only [bind, Except.bind]
  exact read

end Cutting

end DjQueue.Crontab
