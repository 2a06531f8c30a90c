import DjQueue.Text.Json

/-!
# Python values and the JSON columns

What a JSON column is loaded as, and the `==` of Python.  Arguments are Python values where the
settings or a caller have them, and JSON documents where the tables have them.
-/

namespace DjQueue.Payloads

/-! ## Values -/

/-- A finite float is known by its `repr`. -/
inductive PyFloat where
  | finite (repr : String)
  | infinity
  | negativeInfinity
  | nan
deriving DecidableEq, Repr

/-- A Python value.  An instance of a subclass of `str`, `list`, `tuple` or `dict` is treated as one
of these; subclasses of `int` and `float` are not. -/
inductive PyObject where
  | none
  | bool (b : Bool)
  | int (n : Int)
  | intSubclass (n : Int)
  | float (x : PyFloat)
  | floatSubclass (x : PyFloat)
  | str (s : String)
  | list (items : List PyObject)
  | tuple (items : List PyObject)
  | dict (entries : List (PyObject × PyObject))
  | object (type : String)
deriving Repr

section Dict

variable {α : Type}

/-- `d[key] = value` -/
def setItem : List (String × α) → String → α → List (String × α)
  | [], key, value => [(key, value)]
  | (k, v) :: rest, key, value =>
      if k = key then (k, value) :: rest else (k, v) :: setItem rest key value

/-- `setItem` for the pairs in order, as `dict(pairs)` stores them. -/
def setItems (d : List (String × α)) (pairs : List (String × α)) : List (String × α) :=
  pairs.foldl (fun d p => setItem d p.1 p.2) d

end Dict

/-- A `dict` with keys of type `str`. -/
def strDict (members : List (String × PyObject)) : PyObject :=
  .dict (members.map (fun m => (.str m.1, m.2)))

/-! ## Loading -/

/-- The Python value of a scalar. -/
def decodeScalar : Json.Scalar → PyObject
  | .null => .none
  | .bool b => .bool b
  | .int n => .int n
  | .real text => .float (.finite text)
  | .str s => .str s

mutual

/-- What `json.loads` makes of a document: of two members with one key the last one stays. -/
def decode : Json.Document → PyObject
  | .scalar s => decodeScalar s
  | .array items => .list (decodeItems items)
  | .object members => strDict (setItems [] (decodeMembers members))

/-- The items of a list read back. -/
def decodeItems : List Json.Document → List PyObject
  | [] => []
  | d :: items => decode d :: decodeItems items

/-- The items of a dict read back, in the order of the text. -/
def decodeMembers : List (String × Json.Document) → List (String × PyObject)
  | [] => []
  | (key, d) :: members => (key, decode d) :: decodeMembers members

end

/-! ## Equality -/

/-- A decimal numeral. -/
def digitsValue (digits : List Char) : Nat := digits.foldl (fun n c => 10 * n + (c.toNat - 48)) 0

/-- The integer that a `float` with 53 bits has for another, ties to even. -/
def roundToFloat (n : Nat) : Nat :=
  let unit := Nat.pow 2 (n.log2 - 52)
  let (quotient, rest) := (n / unit, n % unit)
  let up := unit < 2 * rest || unit == 2 * rest && quotient % 2 == 1
  (if up then quotient + 1 else quotient) * unit

/-- The `int` that the float with this `repr` is equal to, if there is one. -/
def wholeNumber (repr : String) : Option Int :=
  let negative := repr.toList.head? == some '-'
  let text := if negative then repr.toList.tail else repr.toList
  let mantissa := text.takeWhile (fun c => c != 'e')
  let exponentText := (text.dropWhile (fun c => c != 'e')).tail
  let exponent : Int := (if exponentText.head? == some '-' then -1 else 1) *
    digitsValue (exponentText.dropWhile (fun c => !c.isDigit))
  let whole := mantissa.takeWhile (fun c => c != '.')
  let fraction := (mantissa.dropWhile (fun c => c != '.')).tail
  let digits := digitsValue (whole ++ fraction)
  let shift := exponent - fraction.length
  let magnitude :=
    if 0 ≤ shift then some (roundToFloat (digits * Nat.pow 10 shift.toNat))
    else if digits % Nat.pow 10 (-shift).toNat == 0 then
      some (roundToFloat (digits / Nat.pow 10 (-shift).toNat))
    else none
  magnitude.map (fun n => if negative then -(n : Int) else n)

/-- A number as `==` takes it. -/
inductive Number where
  | whole (n : Int)
  | broken (repr : String)
  | infinity
  | negativeInfinity
deriving DecidableEq, Repr

/-- NaN is equal to nothing. -/
def PyFloat.number : PyFloat → Option Number
  | .finite repr => some (((wholeNumber repr).map Number.whole).getD (.broken repr))
  | .infinity => some .infinity
  | .negativeInfinity => some .negativeInfinity
  | .nan => none

/-- `True` and `1.0` are the number `1`. -/
def PyObject.number : PyObject → Option Number
  | .bool b => some (.whole (if b then 1 else 0))
  | .int n | .intSubclass n => some (.whole n)
  | .float x | .floatSubclass x => x.number
  | _ => Option.none

mutual

/-- `left == right` of two values that share no object. -/
def PyObject.equals : PyObject → PyObject → Bool
  | .none, .none => true
  | .str s, .str s' => s == s'
  | .list items, .list items' | .tuple items, .tuple items' => itemsEqual items items'
  | .dict entries, .dict entries' =>
      entries.length == entries'.length && entriesEqual entries entries'
  | left, right => left.number.any (fun n => right.number == some n)

/-- Python's `==` of two lists. -/
def itemsEqual : List PyObject → List PyObject → Bool
  | [], [] => true
  | left :: items, right :: items' => left.equals right && itemsEqual items items'
  | _, _ => false

/-- Every entry has one like it among the others. -/
def entriesEqual : List (PyObject × PyObject) → List (PyObject × PyObject) → Bool
  | [], _ => true
  | (key, value) :: entries, others =>
      others.any (fun e => key.equals e.1 && value.equals e.2) && entriesEqual entries others

end

/-! ## The stack -/

/-- How deep the interpreter lets the functions of this file go from where they are called: calls of
`_normalize_json_value` inside each other, each a frame of its own, and containers inside each other
that the C code of `json` writes and reads. -/
structure RecursionLimits where
  frames : Nat := 900
  writes : Nat := 900
  reads : Nat := 900
deriving DecidableEq, Repr

end DjQueue.Payloads
