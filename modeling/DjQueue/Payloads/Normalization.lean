import DjQueue.Settings

/-!
# What is stored of a Python value

Arguments and return values are stored as JSON.  `_normalize_json_value` of
`operations/_helpers.py` is a short cut for what writing a value as JSON and reading it back gives;
where it gives up, that is done instead.
-/

namespace DjQueue.Payloads

/-! ## The stack -/

/-- The `RecursionError` of the interpreter's limit, met while `doing` something. -/
def tooDeep (doing : String) : PyError :=
  .recursionError ("maximum recursion depth exceeded" ++ doing)

/-! ## `_normalize_json_value` -/

mutual

/-- The call and those inside it have these frames between them. -/
def normalizeJsonValue : Nat → PyObject → Except PyError PyObject
  | 0, _ => throw (tooDeep "")
  | _ + 1, .none => pure .none
  | _ + 1, .bool b => pure (.bool b)
  | _ + 1, .str s => pure (.str s)
  | _ + 1, .int n => pure (.int n)
  | _ + 1, .float (.finite text) => pure (.float (.finite text))
  | _ + 1, .float _ => throw (.valueError "")
  | frames + 1, .list items | frames + 1, .tuple items => do
      let normalized ← normalizeItems frames items
      pure (.list normalized)
  | frames + 1, .dict entries => do
      let normalized ← normalizeEntries frames entries []
      pure (strDict normalized)
  | _ + 1, .intSubclass _ | _ + 1, .floatSubclass _ | _ + 1, .object _ => throw (.typeError "")

/-- The list branch: the items one after the other, each in a frame of its own. -/
def normalizeItems (frames : Nat) : List PyObject → Except PyError (List PyObject)
  | [] => pure []
  | item :: items => do
      let first ← normalizeJsonValue frames item
      let others ← normalizeItems frames items
      pure (first :: others)

/-- The dict branch: an entry whose key is no `str` raises, a later entry of a key replaces the
value of the earlier one. -/
def normalizeEntries (frames : Nat) : List (PyObject × PyObject) → List (String × PyObject) →
    Except PyError (List (String × PyObject))
  | [], normalized => pure normalized
  | (.str key, item) :: entries, normalized => do
      let value ← normalizeJsonValue frames item
      normalizeEntries frames entries (setItem normalized key value)
  | _ :: _, _ => throw (.typeError "")

end

/-! ## `json` -/

/-- A float as `json.dumps` writes it with `allow_nan=False` -/
def encodeFloat : PyFloat → Except PyError Json.Scalar
  | .finite text => pure (.real text)
  | _ => throw (.valueError "Out of range float values are not JSON compliant")

/-- A key as `json.dumps` writes it: `str`, `None`, `bool`, numbers, and a `TypeError` for anything
else. -/
def encodeKey : PyObject → Except PyError String
  | .str s => pure s
  | .none => pure "null"
  | .bool b => pure (if b then "true" else "false")
  | .int n | .intSubclass n => pure (toString n)
  | .float (.finite text) | .floatSubclass (.finite text) => pure text
  | .float _ | .floatSubclass _ =>
      throw (.valueError "Out of range float values are not JSON compliant")
  | .list _ | .tuple _ | .dict _ | .object _ =>
      throw (.typeError "keys must be str, int, float, bool or None")

mutual

/-- What `json.dumps` writes, without infinities and NaN, with at most so many containers inside
each other. -/
def encode : Nat → PyObject → Except PyError Json.Document
  | _, .none => pure (.scalar .null)
  | _, .bool b => pure (.scalar (.bool b))
  | _, .int n | _, .intSubclass n => pure (.scalar (.int n))
  | _, .float x | _, .floatSubclass x => do
      let number ← encodeFloat x
      pure (.scalar number)
  | _, .str s => pure (.scalar (.str s))
  | 0, .list _ | 0, .tuple _ | 0, .dict _ => throw (tooDeep " while encoding a JSON object")
  | depth + 1, .list items | depth + 1, .tuple items => do
      let encoded ← encodeItems depth items
      pure (.array encoded)
  | depth + 1, .dict entries => do
      let encoded ← encodeEntries depth entries
      pure (.object encoded)
  | _, .object type => throw (.typeError s!"Object of type {type} is not JSON serializable")

/-- The items of an array. -/
def encodeItems (depth : Nat) : List PyObject → Except PyError (List Json.Document)
  | [] => pure []
  | item :: items => do
      let first ← encode depth item
      let others ← encodeItems depth items
      pure (first :: others)

/-- The members of an object, the key of each converted before its value is written. -/
def encodeEntries (depth : Nat) :
    List (PyObject × PyObject) → Except PyError (List (String × Json.Document))
  | [] => pure []
  | (key, item) :: entries => do
      let name ← encodeKey key
      let value ← encode depth item
      let others ← encodeEntries depth entries
      pure ((name, value) :: others)

end

/-- `json.dumps(value, allow_nan=False)` -/
def dumps (limits : RecursionLimits) (value : PyObject) : Except PyError (List Json.Token) := do
  let d ← encode limits.writes value
  pure (Json.print d)

/-- `json.loads(text)` -/
def loads (limits : RecursionLimits) (text : List Json.Token) : Except PyError PyObject :=
  match Json.parse text with
  | none => throw (.valueError "Expecting value")
  | some d =>
      if d.nesting ≤ limits.reads then pure (decode d)
      else throw (tooDeep " while decoding a JSON object from a unicode string")

/-- `json.loads(json.dumps(value, allow_nan=False))` -/
def jsonRoundTrip (limits : RecursionLimits) (value : PyObject) : Except PyError PyObject := do
  let text ← dumps limits value
  loads limits text

/-! ## `_normalize_json_round_trip` -/

/-- `exception` is what `exception_class(message)` makes.  A `RecursionError` is no `ValueError` and
no `TypeError`: it is caught nowhere here. -/
def normalizeJsonRoundTrip (limits : RecursionLimits) (value : PyObject) (exception : PyError) :
    Except PyError PyObject :=
  match normalizeJsonValue limits.frames value with
  | .ok normalized => pure normalized
  | .error (.valueError _) => throw exception
  | .error (.typeError _) =>
      match jsonRoundTrip limits value with
      | .ok loaded => pure loaded
      | .error (.typeError _) | .error (.valueError _) => throw exception
      | .error e => throw e
  | .error e => throw e

/-- `_normalize_payload` -/
def normalizePayload (limits : RecursionLimits) (args : List PyObject)
    (kwargs : List (PyObject × PyObject)) : Except PyError PyObject :=
  normalizeJsonRoundTrip limits (strDict [("args", .list args), ("kwargs", .dict kwargs)])
    (.enqueueError "payload must be JSON round-trippable")

/-- `_normalize_return_value` -/
def normalizeReturnValue (limits : RecursionLimits) (returnValue : PyObject) :
    Except PyError PyObject :=
  normalizeJsonRoundTrip limits returnValue
    (.valueError "return value must be JSON round-trippable")

end DjQueue.Payloads
