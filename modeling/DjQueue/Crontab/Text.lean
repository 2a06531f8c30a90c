import DjQueue.Crontab.Schedule
import DjQueue.Text.Regex

/-!
# The text a schedule is written in

Python's string methods on lists of characters.  What `str.lower`, `str.upper`, `\w` and
`re.IGNORECASE` do to characters outside ASCII is left open in `Unicode`, and the time zones a
process finds in `Platform`; everything below holds whatever they are.
-/

namespace DjQueue.Crontab

open Regex

/-- Beyond ASCII. -/
structure Unicode where
  lower : List Char → List Char
  upper : List Char → List Char
  isWord : Char → Bool
  /-- A letter of a pattern and a character of a text are the same under `re.IGNORECASE`. -/
  sameLetter : Char → Char → Bool

/-- What `ZoneInfo(key)` does. -/
inductive ZoneLookup where
  | found (z : ZoneInfo)
  | notFound
  | failed (e : PyError)

/-- What the parser takes from Python and from the zone database. -/
structure Platform where
  unicode : Unicode
  zoneInfo : List Char → ZoneLookup

/-- A character of ASCII. -/
def isAscii (c : Char) : Bool := decide (c.toNat < 128)

/-- `str.isspace` -/
def isSpace (c : Char) : Bool := whitespaceCodes.contains c.toNat

/-- `str.isdecimal`, which `\d` and `int` go by. -/
def isDigit (c : Char) : Bool := (decimalDigit c).isSome

namespace Unicode

variable (u : Unicode)

/-- `str.lower` -/
def lowerText (cs : List Char) : List Char :=
  if cs.all isAscii then cs.map Char.toLower else u.lower cs

/-- `str.upper` -/
def upperText (cs : List Char) : List Char :=
  if cs.all isAscii then cs.map Char.toUpper else u.upper cs

/-- `\w` -/
def isWordChar (c : Char) : Bool :=
  if isAscii c then c.isAlphanum || c == '_' else u.isWord c

/-- `\b` -/
def wordBoundary : Rx := .boundary u.isWordChar

/-- Two letters that `re.IGNORECASE` does not tell apart. -/
def ignoreCase (letter c : Char) : Bool :=
  if isAscii c then letter.toLower == c.toLower else u.sameLetter letter c

end Unicode

/-! ## Strings -/

/-- `text.strip(chars)` -/
def stripBy (p : Char → Bool) (cs : List Char) : List Char :=
  ((cs.dropWhile p).reverse.dropWhile p).reverse

/-- `str.strip` -/
def strip (cs : List Char) : List Char := stripBy isSpace cs

/-- `text.split()` -/
def words (cs : List Char) : List (List Char) :=
  (cs.splitOnP isSpace).filter (fun w => !w.isEmpty)

/-- `" ".join(parts)` -/
def unwords (parts : List (List Char)) : List Char := [' '].intercalate parts

/-- `text.split(c, 1)`, for a text that holds `c`. -/
def splitOnce (c : Char) (cs : List Char) : List Char × List Char :=
  (cs.takeWhile (· != c), (cs.dropWhile (· != c)).tail)

/-- The text of a message. -/
def text (cs : List Char) : String := String.ofList cs

/-- `f"{value!r}"` -/
def quoted (cs : List Char) : String := pyRepr (text cs)

/-! ## Numbers -/

/-- `[-+]?\d+\Z` -/
def intRx : Rx := seqs [opt (.char (fun c => c == '-' || c == '+')), some1 isDigit, .stop]

/-- Text that `_INT_RE` matches whole. -/
def isInt (cs : List Char) : Bool := (fullmatch intRx cs).isSome

/-- `int(text)`, for a text that `intRx` matches. -/
def toInt (cs : List Char) : Except PyError Int :=
  let signed := cs.head?.any (fun c => c == '-' || c == '+')
  let digits := if signed then cs.tail else cs
  if intMaxStrDigits < digits.length then
    .error (.valueError "Exceeds the limit for integer string conversion")
  else .ok (if cs.head? = some '-' then -decimalNumber digits else decimalNumber digits)

/-- `str(number)` -/
def digits (n : Int) : List Char := (toString n).toList

/-- `except ValueError` -/
def isValueError : PyError → Bool
  | .valueError _ => true
  | _ => false

/-- `try: x except ValueError: other` -/
def orOnValueError {α : Type} (x : Except PyError α) (other : Except PyError α) :
    Except PyError α :=
  match x with
  | .ok a => .ok a
  | .error e => if isValueError e then other else .error e

/-- The first of the alternatives that raises no `ValueError`. -/
def firstOf {α : Type} (last : PyError) : List (Except PyError α) → Except PyError α
  | [] => .error last
  | x :: rest => orOnValueError x (firstOf last rest)

theorem ok_of_isOk {α : Type} {x : Except PyError α} (default : α) (h : x.isOk = true) :
    x = .ok (x.toOption.getD default) := by
  cases x with
  | error e => cases h
  | ok a => rfl

/-- A platform that knows no time zones and changes nothing beyond ASCII. -/
def plainPlatform : Platform :=
  ⟨⟨id, id, fun _ => false, fun letter c => letter == c⟩, fun _ => .notFound⟩

end DjQueue.Crontab
