import Mathlib.Data.List.Basic

/-!
# Regular expressions, matched by backtracking

As much of Python's `re` as a program needs whose repetitions are all of single characters: the
alternatives of a branch are tried in order, `many` takes as much as it can first and `few` as
little, and a group keeps what it matched last.
-/

namespace Regex

/-- The expressions of `re` that the parsers use. -/
inductive Rx where
  | empty
  | char (p : Char → Bool)
  /-- `x*`, of a character class -/
  | many (p : Char → Bool)
  /-- `x*?` -/
  | few (p : Char → Bool)
  | seq (a b : Rx)
  | alt (a b : Rx)
  | group (n : Nat) (a : Rx)
  /-- `(?=x)` -/
  | ahead (a : Rx)
  /-- `\b`, for the given word characters -/
  | boundary (word : Char → Bool)
  /-- `\Z` -/
  | stop

/-- A place in a text: what stands before it, last character first, what follows, and the groups
matched on the way. -/
structure Pos where
  left : List Char
  rest : List Char
  groups : List (Nat × List Char) := []
deriving DecidableEq, Repr

namespace Pos

/-- `match.group(n)`, if the group took part in the match. -/
def group (p : Pos) (n : Nat) : Option (List Char) := p.groups.lookup n

/-- The text between two places. -/
def since (start p : Pos) : List Char :=
  (p.left.take (p.left.length - start.left.length)).reverse

/-- `\b` -/
def atBoundary (word : Char → Bool) (p : Pos) : Bool :=
  p.left.head?.any word != p.rest.head?.any word

end Pos

/-- As many as possible, then fewer. -/
def manyFrom (p : Char → Bool) (k : Pos → Option Pos) (groups : List (Nat × List Char)) :
    List Char → List Char → Option Pos
  | left, [] => k ⟨left, [], groups⟩
  | left, c :: rest =>
      if p c then (manyFrom p k groups (c :: left) rest).or (k ⟨left, c :: rest, groups⟩)
      else k ⟨left, c :: rest, groups⟩

/-- As few as possible, then more. -/
def fewFrom (p : Char → Bool) (k : Pos → Option Pos) (groups : List (Nat × List Char)) :
    List Char → List Char → Option Pos
  | left, [] => k ⟨left, [], groups⟩
  | left, c :: rest =>
      if p c then (k ⟨left, c :: rest, groups⟩).or (fewFrom p k groups (c :: left) rest)
      else k ⟨left, c :: rest, groups⟩

/-- Matches at a place and goes on with `k`. -/
def Rx.run : Rx → (Pos → Option Pos) → Pos → Option Pos
  | .empty, k, pos => k pos
  | .char p, k, pos =>
      match pos.rest with
      | [] => none
      | c :: rest => if p c then k ⟨c :: pos.left, rest, pos.groups⟩ else none
  | .many p, k, pos => manyFrom p k pos.groups pos.left pos.rest
  | .few p, k, pos => fewFrom p k pos.groups pos.left pos.rest
  | .seq a b, k, pos => a.run (b.run k) pos
  | .alt a b, k, pos => (a.run k pos).or (b.run k pos)
  | .group n a, k, pos =>
      a.run (fun p => k { p with groups := (n, pos.since p) :: p.groups }) pos
  | .ahead a, k, pos => if (a.run some pos).isSome then k pos else none
  | .boundary word, k, pos => if pos.atBoundary word then k pos else none
  | .stop, k, pos => if pos.rest.isEmpty then k pos else none

/-! ## Building expressions -/

/-- One after the other. -/
def seqs : List Rx → Rx
  | [] => .empty
  | [a] => a
  | a :: rest => .seq a (seqs rest)

/-- One of several. -/
def alts : List Rx → Rx
  | [] => .empty
  | [a] => a
  | a :: rest => .alt a (alts rest)

/-- The characters of a word, each compared by `same`. -/
def word (same : Char → Char → Bool) (text : String) : Rx :=
  seqs (text.toList.map (fun c => .char (same c)))

/-- A text itself. -/
def lit (text : String) : Rx := word (fun a b => a == b) text

/-- `x+` -/
def some1 (p : Char → Bool) : Rx := .seq (.char p) (.many p)

/-- `x?` -/
def opt (a : Rx) : Rx := .alt a .empty

/-- `.` -/
def dot (c : Char) : Bool := c != '\n'

/-! ## `re.fullmatch`, `re.search`, `re.split` and `re.sub` -/

/-- `re.fullmatch` -/
def fullmatch (r : Rx) (text : List Char) : Option Pos :=
  r.run (fun p => if p.rest.isEmpty then some p else none) ⟨[], text, []⟩

/-- The first match at or after a place: what stood before it, and where it ends. -/
def searchFrom (r : Rx) : List Char → List Char → Option (List Char × Pos)
  | left, [] => (r.run some ⟨left, [], []⟩).map (fun p => (left, p))
  | left, c :: rest =>
      ((r.run some ⟨left, c :: rest, []⟩).map (fun p => (left, p))).or
        (searchFrom r (c :: left) rest)

/-- The text before the first match and the text after it. -/
def search (r : Rx) (text : List Char) : Option (List Char × List Char) :=
  (searchFrom r [] text).map (fun found => (found.1.reverse, found.2.rest))

/-- The pieces between the matches from here on. -/
def splitFrom (r : Rx) : Nat → List Char → List Char → List (List Char)
  | 0, _, rest => [rest]
  | fuel + 1, left, rest =>
      match searchFrom r left rest with
      | none => [rest]
      | some (start, p) =>
          (start.take (start.length - left.length)).reverse :: splitFrom r fuel p.left p.rest

/-- `re.split`, for an expression that matches no empty text. -/
def split (r : Rx) (text : List Char) : List (List Char) := splitFrom r (text.length + 1) [] text

/-- `re.sub`, for an expression that matches no empty text. -/
def sub (r : Rx) (new : List Char) (text : List Char) : List Char :=
  new.intercalate (split r text)

end Regex
