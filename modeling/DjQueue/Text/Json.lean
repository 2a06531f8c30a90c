import Mathlib.Data.List.Basic

/-!
# JSON documents as lists of tokens

A document is printed as its tokens and read back by recursive descent.  What a scalar looks like in
the text is left open: a token carries its value.
-/

namespace Json

/-- A value without parts. -/
inductive Scalar where
  | null
  | bool (b : Bool)
  | int (n : Int)
  /-- A number with a fraction or an exponent, by its text. -/
  | real (text : String)
  | str (s : String)
deriving DecidableEq, Repr

/-- The tokens of the text. -/
inductive Token where
  | scalar (s : Scalar)
  | openArray
  | closeArray
  | openObject
  | closeObject
  | comma
  | colon
deriving DecidableEq, Repr

/-- A JSON value. -/
inductive Document where
  | scalar (s : Scalar)
  | array (items : List Document)
  | object (members : List (String × Document))
deriving Repr

mutual

/-- How many arrays and objects are inside each other. -/
def Document.nesting : Document → Nat
  | .scalar _ => 0
  | .array items => itemsNesting items + 1
  | .object members => membersNesting members + 1

/-- The deepest of the items. -/
def itemsNesting : List Document → Nat
  | [] => 0
  | d :: items => max d.nesting (itemsNesting items)

/-- The deepest of the values. -/
def membersNesting : List (String × Document) → Nat
  | [] => 0
  | (_, d) :: members => max d.nesting (membersNesting members)

end

mutual

/-- Equality of documents is decidable. -/
def Document.decEq : (d d' : Document) → Decidable (d = d')
  | .scalar s, .scalar s' =>
      if same : s = s' then isTrue (by rw [same]) else isFalse (by simp [same])
  | .array items, .array items' =>
      match itemsDecEq items items' with
      | isTrue same => isTrue (by rw [same])
      | isFalse differ => isFalse (by simp [differ])
  | .object members, .object members' =>
      match membersDecEq members members' with
      | isTrue same => isTrue (by rw [same])
      | isFalse differ => isFalse (by simp [differ])
  | .scalar _, .array _ | .scalar _, .object _ | .array _, .scalar _ | .array _, .object _
  | .object _, .scalar _ | .object _, .array _ => isFalse (by simp)

/-- Equality of items is decidable. -/
def itemsDecEq : (items items' : List Document) → Decidable (items = items')
  | [], [] => isTrue rfl
  | [], _ :: _ | _ :: _, [] => isFalse (by simp)
  | d :: items, d' :: items' =>
      match d.decEq d', itemsDecEq items items' with
      | isTrue first, isTrue others => isTrue (by rw [first, others])
      | isFalse differ, _ => isFalse (by simp [differ])
      | isTrue _, isFalse differ => isFalse (by simp [differ])

/-- Equality of members is decidable. -/
def membersDecEq : (members members' : List (String × Document)) → Decidable (members = members')
  | [], [] => isTrue rfl
  | [], _ :: _ | _ :: _, [] => isFalse (by simp)
  | (key, d) :: members, (key', d') :: members' =>
      if same : key = key' then
        match d.decEq d', membersDecEq members members' with
        | isTrue first, isTrue others => isTrue (by rw [same, first, others])
        | isFalse differ, _ => isFalse (by simp [differ])
        | isTrue _, isFalse differ => isFalse (by simp [differ])
      else isFalse (by simp [same])

end

instance : DecidableEq Document := Document.decEq

/-! ## Printing -/

mutual

/-- The tokens of a document, in the order of its text. -/
def print : Document → List Token
  | .scalar s => [.scalar s]
  | .array [] => [.openArray, .closeArray]
  | .array (d :: items) => .openArray :: print d ++ printItems items
  | .object [] => [.openObject, .closeObject]
  | .object ((key, d) :: members) =>
      .openObject :: .scalar (.str key) :: .colon :: print d ++ printMembers members

/-- The items after the first one, and the bracket. -/
def printItems : List Document → List Token
  | [] => [.closeArray]
  | d :: items => .comma :: print d ++ printItems items

/-- The members after the first one, and the brace. -/
def printMembers : List (String × Document) → List Token
  | [] => [.closeObject]
  | (key, d) :: members => .comma :: .scalar (.str key) :: .colon :: print d ++ printMembers members

end

/-! ## Parsing -/

mutual

/-- The document at the front, and the tokens behind it. -/
def parseValue : Nat → List Token → Option (Document × List Token)
  | 0, _ => none
  | fuel + 1, tokens =>
      match tokens with
      | .scalar s :: rest => some (.scalar s, rest)
      | .openArray :: .closeArray :: rest => some (.array [], rest)
      | .openArray :: rest => do
          let (d, rest) ← parseValue fuel rest
          let (items, rest) ← parseItems fuel rest
          pure (.array (d :: items), rest)
      | .openObject :: .closeObject :: rest => some (.object [], rest)
      | .openObject :: .scalar (.str key) :: .colon :: rest => do
          let (d, rest) ← parseValue fuel rest
          let (members, rest) ← parseMembers fuel rest
          pure (.object ((key, d) :: members), rest)
      | _ => none

/-- The items up to the closing bracket. -/
def parseItems : Nat → List Token → Option (List Document × List Token)
  | 0, _ => none
  | fuel + 1, tokens =>
      match tokens with
      | .closeArray :: rest => some ([], rest)
      | .comma :: rest => do
          let (d, rest) ← parseValue fuel rest
          let (items, rest) ← parseItems fuel rest
          pure (d :: items, rest)
      | _ => none

/-- The members up to the closing brace. -/
def parseMembers : Nat → List Token → Option (List (String × Document) × List Token)
  | 0, _ => none
  | fuel + 1, tokens =>
      match tokens with
      | .closeObject :: rest => some ([], rest)
      | .comma :: .scalar (.str key) :: .colon :: rest => do
          let (d, rest) ← parseValue fuel rest
          let (members, rest) ← parseMembers fuel rest
          pure ((key, d) :: members, rest)
      | _ => none

end

/-- The document that all the tokens make up. -/
def parse (tokens : List Token) : Option Document :=
  match parseValue tokens.length tokens with
  | some (d, []) => some d
  | _ => none

/-! ## Round trips -/

/-- A document does not start with a closing bracket. -/
theorem head_print : ∀ d : Document, (print d).head? ≠ some .closeArray
  | .scalar s => by
      rw [print]
      exact nofun
  | .array [] => by
      rw [print]
      exact nofun
  | .array (d :: items) => by
      rw [print]
      exact nofun
  | .object [] => by
      rw [print]
      exact nofun
  | .object ((key, d) :: members) => by
      rw [print]
      exact nofun

theorem print_ne_nil (d : Document) : print d ≠ [] := by
  cases d with
  | scalar s => simp [print]
  | array items => cases items <;> simp [print]
  | object members => cases members <;> simp [print]

/-- A bracket that another document follows opens an array with a first item. -/
theorem parseValue_openArray {fuel : Nat} {tokens : List Token}
    (other : tokens.head? ≠ some .closeArray) :
    parseValue (fuel + 1) (.openArray :: tokens) = (do
      let (d, rest) ← parseValue fuel tokens
      let (items, rest) ← parseItems fuel rest
      pure (.array (d :: items), rest)) := by
  rw [parseValue]
  rintro rest rfl
  exact other rfl

mutual

/-- A printed document is read back, whatever follows it. -/
theorem parseValue_print : ∀ (d : Document) (rest : List Token) (fuel : Nat),
    (print d).length ≤ fuel → parseValue fuel (print d ++ rest) = some (d, rest)
  | d, rest, 0, enough => absurd (List.length_eq_zero_iff.mp (Nat.le_zero.mp enough)) (print_ne_nil d)
  | .scalar s, rest, fuel + 1, _ => by
      rw [print, List.singleton_append, parseValue]
  | .array [], rest, fuel + 1, _ => by
      rw [print]
      rfl
  | .array (d :: items), rest, fuel + 1, enough => by
      rw [print, List.cons_append, List.length_cons, List.length_append] at enough
      have head : (print d ++ printItems items ++ rest).head? ≠ some .closeArray := by
        cases printed : print d with
        | nil => exact absurd printed (print_ne_nil d)
        | cons token tokens =>
            have first := head_print d
            rw [printed] at first
            exact first
      rw [print, List.cons_append, List.cons_append, parseValue_openArray head, List.append_assoc,
        parseValue_print d _ fuel (by omega)]
      dsimp only [Option.bind_eq_bind, Option.bind_some]
      rw [parseItems_print items rest fuel (by omega)]
      rfl
  | .object [], rest, fuel + 1, _ => by
      rw [print]
      rfl
  | .object ((key, d) :: members), rest, fuel + 1, enough => by
      simp only [print, List.cons_append, List.length_cons, List.length_append] at enough
      simp only [print, List.cons_append, List.append_assoc]
      rw [parseValue, parseValue_print d _ fuel (by omega)]
      dsimp only [Option.bind_eq_bind, Option.bind_some]
      rw [parseMembers_print members rest fuel (by omega)]
      rfl

/-- The items printed are read back, whatever follows. -/
theorem parseItems_print : ∀ (items : List Document) (rest : List Token) (fuel : Nat),
    (printItems items).length ≤ fuel →
      parseItems fuel (printItems items ++ rest) = some (items, rest)
  | [], rest, 0, enough => by simp [printItems] at enough
  | d :: items, rest, 0, enough => by simp [printItems] at enough
  | [], rest, fuel + 1, _ => by
      rw [printItems]
      rfl
  | d :: items, rest, fuel + 1, enough => by
      simp only [printItems, List.cons_append, List.length_cons, List.length_append] at enough
      simp only [printItems, List.cons_append, List.append_assoc]
      rw [parseItems, parseValue_print d _ fuel (by omega)]
      dsimp only [Option.bind_eq_bind, Option.bind_some]
      rw [parseItems_print items rest fuel (by omega)]
      rfl

/-- The members printed are read back, whatever follows. -/
theorem parseMembers_print : ∀ (members : List (String × Document)) (rest : List Token)
    (fuel : Nat), (printMembers members).length ≤ fuel →
      parseMembers fuel (printMembers members ++ rest) = some (members, rest)
  | [], rest, 0, enough => by simp [printMembers] at enough
  | (key, d) :: members, rest, 0, enough => by simp [printMembers] at enough
  | [], rest, fuel + 1, _ => by
      rw [printMembers]
      rfl
  | (key, d) :: members, rest, fuel + 1, enough => by
      simp only [printMembers, List.cons_append, List.length_cons, List.length_append] at enough
      simp only [printMembers, List.cons_append, List.append_assoc]
      rw [parseMembers, parseValue_print d _ fuel (by omega)]
      dsimp only [Option.bind_eq_bind, Option.bind_some]
      rw [parseMembers_print members rest fuel (by omega)]
      rfl

end

theorem parse_print (d : Document) : parse (print d) = some d := by
  have read := parseValue_print d [] (print d).length (Nat.le_refl _)
  rw [List.append_nil] at read
  rw [parse, read]

end Json
