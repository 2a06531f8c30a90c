import DjQueue.Payloads.Normalization

/-!
# The short cut and the round trip

The short cut agrees with writing a value as JSON and reading it back wherever it gives a value, and
a `ValueError` of its own is one of writing; as long as the stack is deep enough normalizing is
therefore the round trip, with one exception for all of that.  What is read back is in a normal form
that normalizing leaves alone.
-/

namespace DjQueue.Payloads

/-- What the normalization catches: `except (TypeError, ValueError)`. -/
def isJsonError : PyError → Bool
  | .typeError _ | .valueError _ => true
  | _ => false

/-! ## The walk of the short cut -/

/-- What `_normalize_json_value` makes of a value, or of a key, when it comes to it. -/
inductive Met where
  | plain | notFinite | foreign
deriving DecidableEq, Repr

mutual

/-- What is met in a value and how deep inside each other the calls are then, in the order of the
walk.  A key takes no call. -/
def walk (depth : Nat) : PyObject → List (Nat × Met)
  | .none | .bool _ | .str _ | .int _ | .float (.finite _) => [(depth, .plain)]
  | .float _ => [(depth, .notFinite)]
  | .list items | .tuple items => (depth, .plain) :: walkItems (depth + 1) items
  | .dict entries => (depth, .plain) :: walkEntries (depth + 1) entries
  | .intSubclass _ | .floatSubclass _ | .object _ => [(depth, .foreign)]

/-- What the walk meets in the items of a list. -/
def walkItems (depth : Nat) : List PyObject → List (Nat × Met)
  | [] => []
  | item :: items => walk depth item ++ walkItems depth items

/-- What the walk meets in the entries of a dict; a key that is no `str` ends it. -/
def walkEntries (depth : Nat) : List (PyObject × PyObject) → List (Nat × Met)
  | [] => []
  | (.str _, item) :: entries => walk depth item ++ walkEntries depth entries
  | _ :: _ => [(0, .foreign)]

end

/-- Where the walk ends early: too deep, or at a part that is no JSON value of its own. -/
def Stops (frames : Nat) (m : Nat × Met) : Bool := frames < m.1 || m.2 ≠ .plain

/-- What the walk ends with. -/
def stopOf (frames : Nat) (m : Nat × Met) : PyError :=
  if frames < m.1 then tooDeep ""
  else if m.2 = .notFinite then .valueError "" else .typeError ""


/-- What the walk comes to: the first thing that stops it, or nothing. -/
def walkError (frames : Nat) (walk : List (Nat × Met)) : Option PyError :=
  (walk.find? (Stops frames)).map (stopOf frames)

/-- The first thing that stops the walk is in the first part, or else in the second. -/
theorem walkError_append (frames : Nat) (first others : List (Nat × Met)) :
    walkError frames (first ++ others) = (walkError frames first).or (walkError frames others) := by
  unfold walkError
  rw [List.find?_append]
  cases first.find? (Stops frames) <;> rfl

/-- What does not stop the walk is passed over. -/
theorem walkError_cons_of_not (frames : Nat) {m : Nat × Met} (others : List (Nat × Met))
    (goes : Stops frames m = false) :
    walkError frames (m :: others) = walkError frames others := by
  unfold walkError
  rw [List.find?_cons, goes]

/-- A part that is reached and is no JSON value of its own. -/
theorem walkError_singleton_of_kind {frames depth : Nat} {kind : Met} (reached : depth ≤ frames)
    (other : kind ≠ .plain) : walkError frames [(depth, kind)] =
      some (if kind = .notFinite then .valueError "" else .typeError "") := by
  have here : ¬ frames < depth := by omega
  have stops : Stops frames (depth, kind) = true := by simp [Stops, other]
  rw [walkError, List.find?_cons, stops]
  simp only [Option.map_some, stopOf, if_neg here]

/-- The error of a computation, if it ends with one. -/
def errorOf {α : Type} : Except PyError α → Option PyError
  | .ok _ => none
  | .error e => some e

/-- Building on a result adds no error. -/
theorem errorOf_bind_pure {α β : Type} (x : Except PyError α) (f : α → β) :
    errorOf (x >>= fun a => pure (f a)) = errorOf x := by
  cases x <;> rfl

/-- If every continuation ends the same way, the whole ends with the first error or that way. -/
theorem errorOf_bind {α β : Type} (x : Except PyError α) (f : α → Except PyError β)
    (e : Option PyError) (next : ∀ a, errorOf (f a) = e) :
    errorOf (x >>= f) = (errorOf x).or e := by
  cases x with
  | ok a => exact next a
  | error e' => rfl

section

variable {limit : Nat}

mutual

/-- The short cut ends with what stops its walk. -/
theorem errorOf_normalizeJsonValue : ∀ (value : PyObject) (frames depth : Nat),
    frames + depth = limit + 1 → 0 < depth →
      errorOf (normalizeJsonValue frames value) = walkError limit (walk depth value)
  | value, 0, depth, same, _ => by
      have deep : limit < depth := by omega
      have first : ∃ kind others, walk depth value = (depth, kind) :: others := by
        cases value with
        | float x => cases x <;> exact ⟨_, _, rfl⟩
        | _ => exact ⟨_, _, rfl⟩
      rcases first with ⟨kind, others, first⟩
      have stops : Stops limit (depth, kind) = true := by simp [Stops, deep]
      rw [first, walkError, List.find?_cons, stops]
      simp only [Option.map_some, stopOf, if_pos deep]
      simp only [normalizeJsonValue]
      rfl
  | .none, frames + 1, depth, same, _ | .bool _, frames + 1, depth, same, _
  | .str _, frames + 1, depth, same, _ | .int _, frames + 1, depth, same, _
  | .float (.finite _), frames + 1, depth, same, _ => by
      rw [walk, walkError_cons_of_not _ _ (by simp [Stops]; omega)]
      rfl
  | .list items, frames + 1, depth, same, _ | .tuple items, frames + 1, depth, same, _ => by
      have rest := errorOf_normalizeItems items frames (depth + 1) (by omega) (by omega)
      rw [walk, walkError_cons_of_not _ _ (by simp [Stops]; omega), ← rest]
      simp only [normalizeJsonValue]
      exact errorOf_bind_pure _ _
  | .dict entries, frames + 1, depth, same, _ => by
      have rest := errorOf_normalizeEntries entries [] frames (depth + 1) (by omega) (by omega)
      rw [walk, walkError_cons_of_not _ _ (by simp [Stops]; omega), ← rest]
      simp only [normalizeJsonValue]
      exact errorOf_bind_pure _ _
  | .float .infinity, frames + 1, depth, same, _
  | .float .negativeInfinity, frames + 1, depth, same, _
  | .float .nan, frames + 1, depth, same, _ => by
      rw [walk, walkError_singleton_of_kind (by omega) (by decide)]
      · rfl
      · exact fun _ => nofun
  | .intSubclass _, frames + 1, depth, same, _ | .floatSubclass _, frames + 1, depth, same, _
  | .object _, frames + 1, depth, same, _ => by
      rw [walk, walkError_singleton_of_kind (by omega) (by decide)]
      rfl

theorem errorOf_normalizeItems : ∀ (items : List PyObject) (frames depth : Nat),
    frames + depth = limit + 1 → 0 < depth →
      errorOf (normalizeItems frames items) = walkError limit (walkItems depth items)
  | [], _, _, _, _ => rfl
  | item :: items, frames, depth, same, positive => by
      rw [walkItems, walkError_append, ← errorOf_normalizeJsonValue item frames depth same positive,
        ← errorOf_normalizeItems items frames depth same positive, normalizeItems]
      exact errorOf_bind _ _ _ fun first => errorOf_bind_pure _ _

theorem errorOf_normalizeEntries : ∀ (entries : List (PyObject × PyObject))
    (normalized : List (String × PyObject)) (frames depth : Nat),
    frames + depth = limit + 1 → 0 < depth →
      errorOf (normalizeEntries frames entries normalized) =
        walkError limit (walkEntries depth entries)
  | [], _, _, _, _, _ => rfl
  | (.str key, item) :: entries, normalized, frames, depth, same, positive => by
      rw [walkEntries, walkError_append,
        ← errorOf_normalizeJsonValue item frames depth same positive, normalizeEntries]
      exact errorOf_bind _ _ _ fun value =>
        errorOf_normalizeEntries entries _ frames depth same positive
  | (.none, _) :: _, _, _, _, _, _ | (.bool _, _) :: _, _, _, _, _, _
  | (.int _, _) :: _, _, _, _, _, _ | (.intSubclass _, _) :: _, _, _, _, _, _
  | (.float _, _) :: _, _, _, _, _, _ | (.floatSubclass _, _) :: _, _, _, _, _, _
  | (.list _, _) :: _, _, _, _, _, _ | (.tuple _, _) :: _, _, _, _, _, _
  | (.dict _, _) :: _, _, _, _, _, _ | (.object _, _) :: _, _, _, _, _, _ => rfl

end

end

/-! ## What is written -/

/-- An error of the stack. -/
def isRecursionError : PyError → Bool
  | .recursionError _ => true
  | _ => false

/-- Whatever the computation raises is caught, or the stack was not deep enough. -/
def RaisesKnown {α : Type} (x : Except PyError α) : Prop :=
  ∀ e, x = .error e → isJsonError e = true ∨ isRecursionError e = true

theorem raisesKnown_ok {α : Type} (a : α) : RaisesKnown (.ok a) := by
  intro e fails
  cases fails

/-- The two kinds of error `json` can raise. -/
theorem raisesKnown_error {α : Type} {e : PyError}
    (known : isJsonError e = true ∨ isRecursionError e = true) :
    RaisesKnown (.error e : Except PyError α) := by
  intro e' fails
  cases fails
  exact known

theorem RaisesKnown.bind {α β : Type} {x : Except PyError α} {f : α → Except PyError β}
    (first : RaisesKnown x) (others : ∀ a, RaisesKnown (f a)) : RaisesKnown (x >>= f) := by
  intro e fails
  rcases bind_eq_error fails with head | ⟨a, -, tail⟩
  · exact first e head
  · exact others a e tail

/-- A float refused by `allow_nan=False` is a `ValueError` -/
theorem raisesKnown_encodeFloat (x : PyFloat) : RaisesKnown (encodeFloat x) := by
  cases x with
  | finite text => exact raisesKnown_ok _
  | _ => exact raisesKnown_error (.inl rfl)

theorem raisesKnown_encodeKey (key : PyObject) : RaisesKnown (encodeKey key) := by
  cases key with
  | none | bool | int | intSubclass | str => exact raisesKnown_ok _
  | float x | floatSubclass x =>
      cases x with
      | finite text => exact raisesKnown_ok _
      | _ => exact raisesKnown_error (.inl rfl)
  | list | tuple | dict | object => exact raisesKnown_error (.inl rfl)

mutual

/-- Writing a value raises nothing but the known kinds. -/
theorem raisesKnown_encode : ∀ (value : PyObject) (depth : Nat), RaisesKnown (encode depth value)
  | .none, depth | .bool _, depth | .int _, depth | .intSubclass _, depth | .str _, depth => by
      cases depth <;> exact raisesKnown_ok _
  | .float x, depth | .floatSubclass x, depth => by
      cases depth <;> exact (raisesKnown_encodeFloat x).bind (fun _ => raisesKnown_ok _)
  | .list _, 0 | .tuple _, 0 | .dict _, 0 => raisesKnown_error (.inr rfl)
  | .list items, depth + 1 | .tuple items, depth + 1 =>
      (raisesKnown_encodeItems items depth).bind (fun _ => raisesKnown_ok _)
  | .dict entries, depth + 1 =>
      (raisesKnown_encodeEntries entries depth).bind (fun _ => raisesKnown_ok _)
  | .object _, depth => by cases depth <;> exact raisesKnown_error (.inl rfl)

theorem raisesKnown_encodeItems : ∀ (items : List PyObject) (depth : Nat),
    RaisesKnown (encodeItems depth items)
  | [], _ => raisesKnown_ok _
  | item :: items, depth =>
      (raisesKnown_encode item depth).bind (fun _ =>
        (raisesKnown_encodeItems items depth).bind (fun _ => raisesKnown_ok _))

theorem raisesKnown_encodeEntries : ∀ (entries : List (PyObject × PyObject)) (depth : Nat),
    RaisesKnown (encodeEntries depth entries)
  | [], _ => raisesKnown_ok _
  | (key, item) :: entries, depth =>
      (raisesKnown_encodeKey key).bind (fun _ =>
        (raisesKnown_encode item depth).bind (fun _ =>
          (raisesKnown_encodeEntries entries depth).bind (fun _ => raisesKnown_ok _)))

end

/-- The result satisfies `P`, unless the stack is not deep enough. -/
def GivesUnlessDeep {α : Type} (P : α → Prop) (x : Except PyError α) : Prop :=
  (∃ a, x = .ok a ∧ P a) ∨ ∃ e, x = .error e ∧ isRecursionError e = true

/-- A good value is one of the two ways. -/
theorem GivesUnlessDeep.ok {α : Type} {P : α → Prop} {a : α} (good : P a) :
    GivesUnlessDeep P (.ok a) := .inl ⟨a, rfl, good⟩

theorem GivesUnlessDeep.bind {α β : Type} {P : α → Prop} {Q : β → Prop} {x : Except PyError α}
    {f : α → Except PyError β} (first : GivesUnlessDeep P x)
    (others : ∀ a, P a → GivesUnlessDeep Q (f a)) : GivesUnlessDeep Q (x >>= f) := by
  rcases first with ⟨a, rfl, good⟩ | ⟨e, rfl, deep⟩
  · exact others a good
  · exact .inr ⟨e, rfl, deep⟩

mutual

/-- Where the short cut gives a value, it is what is read back of what is written. -/
theorem encode_of_normalizeJsonValue : ∀ (value : PyObject) (frames depth : Nat)
    (normalized : PyObject), normalizeJsonValue frames value = .ok normalized →
      GivesUnlessDeep (fun d => decode d = normalized) (encode depth value)
  | value, 0, depth, _, short => by
      rw [normalizeJsonValue] at short
      cases short
  | .float .infinity, _ + 1, _, _, short | .float .negativeInfinity, _ + 1, _, _, short
  | .float .nan, _ + 1, _, _, short | .intSubclass _, _ + 1, _, _, short
  | .floatSubclass _, _ + 1, _, _, short | .object _, _ + 1, _, _, short => by cases short
  | .none, frames + 1, depth, _, short | .bool _, frames + 1, depth, _, short
  | .str _, frames + 1, depth, _, short | .int _, frames + 1, depth, _, short
  | .float (.finite _), frames + 1, depth, _, short => by
      cases depth <;> exact .ok (Except.ok.inj short)
  | .list _, _, 0, _, _ | .tuple _, _, 0, _, _ | .dict _, _, 0, _, _ => .inr ⟨_, rfl, rfl⟩
  | .list items, frames + 1, depth + 1, _, short | .tuple items, frames + 1, depth + 1, _, short => by
      rcases bind_eq_ok short with ⟨normalized, each, same⟩
      cases same
      have written := encodeItems_of_normalizeItems items frames depth normalized each
      apply written.bind
      intro ds read
      exact .ok (by rw [decode, read])
  | .dict entries, frames + 1, depth + 1, _, short => by
      rcases bind_eq_ok short with ⟨normalized, each, same⟩
      cases same
      have written := encodeEntries_of_normalizeEntries entries frames depth [] normalized each
      apply written.bind
      intro ms read
      exact .ok (by rw [decode, read])

theorem encodeItems_of_normalizeItems : ∀ (items : List PyObject) (frames depth : Nat)
    (normalized : List PyObject), normalizeItems frames items = .ok normalized →
      GivesUnlessDeep (fun ds => decodeItems ds = normalized) (encodeItems depth items)
  | [], _, _, _, short => .ok (Except.ok.inj short)
  | item :: items, frames, depth, _, short => by
      rcases bind_eq_ok short with ⟨first, head, short⟩
      rcases bind_eq_ok short with ⟨others, tail, same⟩
      cases same
      apply (encode_of_normalizeJsonValue item frames depth first head).bind
      intro d read
      apply (encodeItems_of_normalizeItems items frames depth others tail).bind
      intro ds read'
      exact .ok (by rw [decodeItems, read, read'])

/-- The text of a dict's entries decodes to what the entries set. -/
theorem encodeEntries_of_normalizeEntries : ∀ (entries : List (PyObject × PyObject))
    (frames depth : Nat) (normalized result : List (String × PyObject)),
    normalizeEntries frames entries normalized = .ok result →
      GivesUnlessDeep (fun ms => setItems normalized (decodeMembers ms) = result)
        (encodeEntries depth entries)
  | [], _, _, _, _, short => .ok (Except.ok.inj short)
  | (.str key, item) :: entries, frames, depth, normalized, result, short => by
      rcases bind_eq_ok short with ⟨value, head, tail⟩
      have named : encodeKey (.str key) = .ok key := rfl
      rw [encodeEntries, named]
      apply (encode_of_normalizeJsonValue item frames depth value head).bind
      intro d read
      apply (encodeEntries_of_normalizeEntries entries frames depth _ _ tail).bind
      intro ms read'
      exact .ok (by rw [decodeMembers, read]; exact read')

end

/-! ## Where the short cut gives up -/

/-- Nothing is written. -/
def Refused {α : Type} (x : Except PyError α) : Prop := ∃ e, x = .error e

theorem Refused.bind {α β : Type} {x : Except PyError α} (f : α → Except PyError β)
    (refused : Refused x) : Refused (x >>= f) := by
  rcases refused with ⟨e, rfl⟩
  exact ⟨e, rfl⟩

/-- A continuation that always refuses makes the sequence refuse. -/
theorem Refused.bind_next {α β : Type} (x : Except PyError α) {f : α → Except PyError β}
    (refused : ∀ a, Refused (f a)) : Refused (x >>= f) := by
  cases x with
  | ok a => exact refused a
  | error e => exact ⟨e, rfl⟩

mutual

/-- A `ValueError` of the shortcut is a float that `json.dumps` refuses as well. -/
theorem refused_of_valueError : ∀ (value : PyObject) (frames depth : Nat) (message : String),
    normalizeJsonValue frames value = .error (.valueError message) → Refused (encode depth value)
  | value, 0, depth, _, short => by
      rw [normalizeJsonValue] at short
      cases short
  | .none, _ + 1, _, _, short | .bool _, _ + 1, _, _, short | .str _, _ + 1, _, _, short
  | .int _, _ + 1, _, _, short | .float (.finite _), _ + 1, _, _, short
  | .intSubclass _, _ + 1, _, _, short | .floatSubclass _, _ + 1, _, _, short
  | .object _, _ + 1, _, _, short => by cases short
  | .float .infinity, frames + 1, depth, _, _ | .float .negativeInfinity, frames + 1, depth, _, _
  | .float .nan, frames + 1, depth, _, _ => by cases depth <;> exact ⟨_, rfl⟩
  | .list _, _, 0, _, _ | .tuple _, _, 0, _, _ | .dict _, _, 0, _, _ => ⟨_, rfl⟩
  | .list items, frames + 1, depth + 1, message, short
  | .tuple items, frames + 1, depth + 1, message, short => by
      rcases bind_eq_error short with each | ⟨_, _, same⟩
      · exact (refusedItems_of_valueError items frames depth message each).bind _
      · cases same
  | .dict entries, frames + 1, depth + 1, message, short => by
      rcases bind_eq_error short with each | ⟨_, _, same⟩
      · exact (refusedEntries_of_valueError entries frames depth [] message each).bind _
      · cases same

theorem refusedItems_of_valueError : ∀ (items : List PyObject) (frames depth : Nat)
    (message : String), normalizeItems frames items = .error (.valueError message) →
      Refused (encodeItems depth items)
  | item :: items, frames, depth, message, short => by
      rcases bind_eq_error short with head | ⟨_, _, tail⟩
      · exact (refused_of_valueError item frames depth message head).bind _
      · rcases bind_eq_error tail with rest | ⟨_, _, same⟩
        · exact .bind_next _ fun _ =>
            (refusedItems_of_valueError items frames depth message rest).bind _
        · cases same

theorem refusedEntries_of_valueError : ∀ (entries : List (PyObject × PyObject))
    (frames depth : Nat) (normalized : List (String × PyObject)) (message : String),
    normalizeEntries frames entries normalized = .error (.valueError message) →
      Refused (encodeEntries depth entries)
  | (.str key, item) :: entries, frames, depth, normalized, message, short => by
      rw [encodeEntries]
      refine .bind_next _ fun _ => ?_
      rcases bind_eq_error short with head | ⟨_, _, tail⟩
      · exact (refused_of_valueError item frames depth message head).bind _
      · exact .bind_next _ fun _ =>
          (refusedEntries_of_valueError entries frames depth _ message tail).bind _

end

/-! ## What is stored -/

section Dict

variable {α : Type} {d : List (String × α)} {key : String} {value : α}

/-- Setting an item adds its key or changes none. -/
theorem keys_setItem : (setItem d key value).map Prod.fst =
    if key ∈ d.map Prod.fst then d.map Prod.fst else d.map Prod.fst ++ [key] := by
  induction d with
  | nil => rfl
  | cons p d rest =>
      unfold setItem
      split
      · case isTrue same => simp [same]
      · case isFalse differ =>
          simp only [List.map_cons, rest, List.mem_cons, Ne.symm differ, false_or]
          split <;> rfl

/-- Setting an item leaves the keys distinct. -/
theorem nodup_setItem (distinct : (d.map Prod.fst).Nodup) :
    ((setItem d key value).map Prod.fst).Nodup := by
  rw [keys_setItem]
  split
  · exact distinct
  · case isFalse new => exact List.nodup_append.mpr ⟨distinct, by simp, by
      intro k old k' added same
      rw [List.mem_singleton] at added
      exact new (added ▸ same ▸ old)⟩

/-- The entries after setting one are that one and earlier ones. -/
theorem mem_setItem {m : String × α} (member : m ∈ setItem d key value) :
    m = (key, value) ∨ m ∈ d := by
  induction d with
  | nil => exact Or.inl (List.mem_singleton.mp member)
  | cons p d rest =>
      unfold setItem at member
      split at member
      · case isTrue same =>
          rcases List.mem_cons.mp member with first | later
          · exact Or.inl (by rw [first, same])
          · exact Or.inr (List.mem_cons_of_mem _ later)
      · rcases List.mem_cons.mp member with first | later
        · exact Or.inr (first ▸ List.mem_cons_self)
        · rcases rest later with added | old
          · exact Or.inl added
          · exact Or.inr (List.mem_cons_of_mem _ old)

theorem setItem_of_new (new : key ∉ d.map Prod.fst) :
    setItem d key value = d ++ [(key, value)] := by
  induction d with
  | nil => rfl
  | cons p d rest =>
      have differ : p.1 ≠ key := fun same => new (same ▸ List.mem_cons_self)
      simp only [setItem, if_neg differ, rest (fun old => new (List.mem_cons_of_mem _ old)),
        List.cons_append]

/-- Setting items leaves the keys distinct. -/
theorem nodup_setItems (pairs : List (String × α)) (distinct : (d.map Prod.fst).Nodup) :
    ((setItems d pairs).map Prod.fst).Nodup := by
  induction pairs generalizing d with
  | nil => exact distinct
  | cons p pairs rest => exact rest (nodup_setItem distinct)

/-- The entries after setting some are among these and the earlier ones. -/
theorem mem_setItems {m : String × α} {pairs : List (String × α)}
    (member : m ∈ setItems d pairs) : m ∈ pairs ∨ m ∈ d := by
  induction pairs generalizing d with
  | nil => exact Or.inr member
  | cons p pairs rest =>
      rcases rest member with later | early
      · exact Or.inl (List.mem_cons_of_mem _ later)
      · rcases mem_setItem early with this | old
        · exact Or.inl (this ▸ List.mem_cons_self)
        · exact Or.inr old

end Dict

/-- `None`, `bool`, `int`, a finite `float`, `str`, and lists and `str`-keyed dicts of these. -/
inductive IsJson : PyObject → Prop where
  | none : IsJson .none
  | bool (b : Bool) : IsJson (.bool b)
  | int (n : Int) : IsJson (.int n)
  | float (text : String) : IsJson (.float (.finite text))
  | str (s : String) : IsJson (.str s)
  | list (items : List PyObject) (each : ∀ item ∈ items, IsJson item) : IsJson (.list items)
  | dict (members : List (String × PyObject)) (distinct : (members.map Prod.fst).Nodup)
      (each : ∀ m ∈ members, IsJson m.2) : IsJson (strDict members)

mutual

/-- What is read from a text is a value JSON has. -/
theorem isJson_decode : ∀ d : Json.Document, IsJson (decode d)
  | .scalar .null => .none
  | .scalar (.bool b) => .bool b
  | .scalar (.int n) => .int n
  | .scalar (.real text) => .float text
  | .scalar (.str s) => .str s
  | .array ds => .list _ (isJson_decodeItems ds)
  | .object ms => by
      have distinct := nodup_setItems (d := []) (decodeMembers ms) List.nodup_nil
      apply IsJson.dict _ distinct
      intro m member
      rcases mem_setItems member with loaded | none
      · exact isJson_decodeMembers ms m loaded
      · cases none

theorem isJson_decodeItems : ∀ ds : List Json.Document, ∀ item ∈ decodeItems ds, IsJson item
  | [], _, member => by cases member
  | d :: ds, _, member => by
      rcases List.mem_cons.mp member with first | later
      · exact first ▸ isJson_decode d
      · exact isJson_decodeItems ds _ later

theorem isJson_decodeMembers : ∀ ms : List (String × Json.Document),
    ∀ m ∈ decodeMembers ms, IsJson m.2
  | [], _, member => by cases member
  | (_, d) :: ms, _, member => by
      rcases List.mem_cons.mp member with first | later
      · exact first ▸ isJson_decode d
      · exact isJson_decodeMembers ms _ later

end

/-- A list whose items are left as they are is left as it is. -/
theorem eq_of_normalizeItems {frames : Nat} (items : List PyObject)
    (each : ∀ item ∈ items, ∀ n, normalizeJsonValue frames item = .ok n → n = item) :
    ∀ normalized, normalizeItems frames items = .ok normalized → normalized = items := by
  induction items with
  | nil =>
      intro normalized short
      exact (Except.ok.inj short).symm
  | cons item items rest =>
      intro normalized short
      rcases bind_eq_ok short with ⟨first, head, short⟩
      rcases bind_eq_ok short with ⟨others, tail, same⟩
      cases same
      rw [each item List.mem_cons_self first head,
        rest (fun item member => each item (List.mem_cons_of_mem _ member)) others tail]

/-- With distinct keys every entry is put behind those before it. -/
theorem eq_of_normalizeEntries {frames : Nat} (members normalized : List (String × PyObject))
    (distinct : ((normalized ++ members).map Prod.fst).Nodup)
    (each : ∀ m ∈ members, ∀ n, normalizeJsonValue frames m.2 = .ok n → n = m.2) :
    ∀ result, normalizeEntries frames (members.map (fun m => (.str m.1, m.2))) normalized =
      .ok result → result = normalized ++ members := by
  induction members generalizing normalized with
  | nil =>
      intro result short
      rw [List.append_nil]
      exact (Except.ok.inj short).symm
  | cons m members rest =>
      intro result short
      have new : m.1 ∉ normalized.map Prod.fst := by
        intro old
        rw [List.map_append] at distinct
        exact (List.nodup_append.mp distinct).2.2 m.1 old m.1 (by simp) rfl
      have shift : normalized ++ m :: members = normalized ++ [m] ++ members := by simp
      rcases bind_eq_ok short with ⟨value, head, tail⟩
      rw [each m List.mem_cons_self value head, setItem_of_new new] at tail
      rw [shift]
      exact rest _ (shift ▸ distinct) (fun m member => each m (List.mem_cons_of_mem _ member))
        result tail

/-- The short cut leaves a value in normal form alone, if the stack is deep enough for it. -/
theorem IsJson.eq_of_normalizeJsonValue {value : PyObject} (json : IsJson value) :
    ∀ frames normalized, normalizeJsonValue frames value = .ok normalized → normalized = value := by
  induction json with
  | none | bool | int | float | str =>
      intro frames normalized short
      cases frames with
      | zero => cases short
      | succ frames => exact (Except.ok.inj short).symm
  | list items _ each =>
      intro frames normalized short
      cases frames with
      | zero => cases short
      | succ frames =>
          rcases bind_eq_ok short with ⟨result, items_, same⟩
          cases same
          rw [eq_of_normalizeItems items (fun item mem => each item mem frames) result items_]
  | dict members distinct _ each =>
      intro frames normalized short
      cases frames with
      | zero => cases short
      | succ frames =>
          rcases bind_eq_ok short with ⟨result, entries, same⟩
          cases same
          rw [eq_of_normalizeEntries members [] distinct (fun m mem => each m mem frames) result
            entries, List.nil_append]

/-- What a list's walk meets is met in one of its items. -/
theorem mem_walkItems {depth : Nat} {m : Nat × Met} :
    ∀ {items : List PyObject}, m ∈ walkItems depth items → ∃ item ∈ items, m ∈ walk depth item
  | [], mem => by cases mem
  | item :: items, mem => by
      rcases List.mem_append.mp mem with here | later
      · exact ⟨item, List.mem_cons_self, here⟩
      · rcases mem_walkItems later with ⟨item', there, found⟩
        exact ⟨item', List.mem_cons_of_mem _ there, found⟩

/-- What a dict's walk meets is met in one of its values. -/
theorem mem_walkEntries {depth : Nat} {m : Nat × Met} :
    ∀ {members : List (String × PyObject)},
      m ∈ walkEntries depth (members.map (fun m => (.str m.1, m.2))) →
        ∃ member ∈ members, m ∈ walk depth member.2
  | [], mem => by cases mem
  | member :: members, mem => by
      rcases List.mem_append.mp mem with here | later
      · exact ⟨member, List.mem_cons_self, here⟩
      · rcases mem_walkEntries later with ⟨member', there, found⟩
        exact ⟨member', List.mem_cons_of_mem _ there, found⟩

/-- In a value in normal form there is nothing that stops the walk but its depth. -/
theorem IsJson.plain {value : PyObject} (json : IsJson value) :
    ∀ depth, ∀ m ∈ walk depth value, m.2 = .plain := by
  induction json with
  | none | bool | int | float | str =>
      intro depth m mem
      rw [List.mem_singleton.mp mem]
  | list items _ each =>
      intro depth m mem
      rcases List.mem_cons.mp mem with rfl | mem
      · rfl
      · rcases mem_walkItems mem with ⟨item, there, found⟩
        exact each item there _ m found
  | dict members _ _ each =>
      intro depth m mem
      rcases List.mem_cons.mp mem with rfl | mem
      · rfl
      · rcases mem_walkEntries mem with ⟨member, there, found⟩
        exact each member there _ m found

/-! ## The round trip -/

section RoundTrip

variable {limits : RecursionLimits} {value : PyObject} {exception : PyError}

/-- Reading what was printed gives the document back, unless it is nested beyond the reader's limit.
-/
theorem loads_print (limits : RecursionLimits) (d : Json.Document) :
    loads limits (Json.print d) = if d.nesting ≤ limits.reads then .ok (decode d)
      else .error (tooDeep " while decoding a JSON object from a unicode string") := by
  simp only [loads, Json.parse_print]
  rfl

/-- The round trip through the text is decoding what was encoded. -/
theorem jsonRoundTrip_eq (limits : RecursionLimits) (value : PyObject) :
    jsonRoundTrip limits value =
      encode limits.writes value >>= fun d => loads limits (Json.print d) := by
  unfold jsonRoundTrip dumps
  cases encode limits.writes value <;> rfl

/-- The round trip raises nothing but the known kinds. -/
theorem raisesKnown_jsonRoundTrip (limits : RecursionLimits) (value : PyObject) :
    RaisesKnown (jsonRoundTrip limits value) := by
  rw [jsonRoundTrip_eq]
  apply (raisesKnown_encode value limits.writes).bind
  intro d
  rw [loads_print]
  split
  · exact raisesKnown_ok _
  · exact raisesKnown_error (.inr rfl)

/-- What is read back is in normal form. -/
theorem isJson_of_jsonRoundTrip {loaded : PyObject}
    (loads_ : jsonRoundTrip limits value = .ok loaded) : IsJson loaded := by
  rw [jsonRoundTrip_eq] at loads_
  rcases bind_eq_ok loads_ with ⟨d, -, read⟩
  rw [loads_print] at read
  split at read
  · cases read
    exact isJson_decode d
  · cases read

/-- The short cut is the round trip, unless `json` runs out of stack. -/
theorem jsonRoundTrip_of_normalizeJsonValue {frames : Nat} {normalized : PyObject}
    (short : normalizeJsonValue frames value = .ok normalized) :
    GivesUnlessDeep (· = normalized) (jsonRoundTrip limits value) := by
  rw [jsonRoundTrip_eq]
  apply (encode_of_normalizeJsonValue value frames limits.writes normalized short).bind
  intro d read
  rw [loads_print, read]
  split
  · exact .ok rfl
  · exact .inr ⟨_, rfl, rfl⟩

/-- Whether the stack is deep enough for `json` to write the value and read it back, and for what
comes back to be normalized again. -/
def RoundTripFits (limits : RecursionLimits) (value : PyObject) : Prop :=
  (∀ e, jsonRoundTrip limits value = .error e → isRecursionError e = false) ∧
    ∀ loaded, jsonRoundTrip limits value = .ok loaded → ∀ m ∈ walk 1 loaded, m.1 ≤ limits.frames

/-- The stack is deep enough: up to the first part that is no JSON value of its own nothing is
nested deeper than there are frames; and, unless that part is a float that is not finite, what
`json` does fits as well. -/
def Fits (limits : RecursionLimits) (value : PyObject) : Prop :=
  (∀ m ∈ (walk 1 value).find? (Stops limits.frames), m.1 ≤ limits.frames) ∧
    ((∃ m ∈ (walk 1 value).find? (Stops limits.frames), m.2 = .notFinite) ∨
      RoundTripFits limits value)

/-- Normalizing is faithful to the JSON round trip: it gives and refuses the same values, with one
exception for what is refused, and normalizing again changes nothing. -/
structure Faithful (limits : RecursionLimits) (value : PyObject) (exception : PyError) : Prop where
  shortcut : ∀ normalized, normalizeJsonValue limits.frames value = .ok normalized →
    jsonRoundTrip limits value = .ok normalized
  refuses : normalizeJsonRoundTrip limits value exception = .error exception ↔
    ∃ e, jsonRoundTrip limits value = .error e
  only : ∀ e, normalizeJsonRoundTrip limits value exception = .error e → e = exception
  result : ∀ loaded, normalizeJsonRoundTrip limits value exception = .ok loaded →
    jsonRoundTrip limits value = .ok loaded ∧ IsJson loaded ∧
      normalizeJsonRoundTrip limits loaded exception = .ok loaded

/-- Where the shortcut answers, that is the answer. -/
theorem normalizeJsonRoundTrip_of_ok {normalized : PyObject}
    (short : normalizeJsonValue limits.frames value = .ok normalized) :
    normalizeJsonRoundTrip limits value exception = .ok normalized := by
  unfold normalizeJsonRoundTrip
  rw [short]
  rfl

/-- A value in normal form is normalized if it is not nested too deep. -/
theorem IsJson.normalizeJsonValue_iff {frames : Nat} (json : IsJson value) :
    normalizeJsonValue frames value = .ok value ↔ ∀ m ∈ walk 1 value, m.1 ≤ frames := by
  have ended := @errorOf_normalizeJsonValue frames value frames 1 rfl one_pos
  have stops (m : Nat × Met) (mem : m ∈ walk 1 value) :
      Stops frames m = false ↔ m.1 ≤ frames := by
    simp [Stops, json.plain 1 m mem]
  have none_iff : walkError frames (walk 1 value) = Option.none ↔ ∀ m ∈ walk 1 value, m.1 ≤ frames := by
    rw [walkError, Option.map_eq_none_iff, List.find?_eq_none]
    exact forall₂_congr fun m mem => by rw [← stops m mem, Bool.not_eq_true]
  rw [← none_iff, ← ended]
  constructor
  · intro ok
    rw [ok]
    rfl
  · intro none
    cases short : normalizeJsonValue frames value with
    | ok n => rw [json.eq_of_normalizeJsonValue frames n short]
    | error e =>
        rw [short] at none
        cases none

/-- What comes back is normalized again as soon as its nesting fits. -/
theorem normalizeJsonRoundTrip_again {loaded : PyObject}
    (read : jsonRoundTrip limits value = .ok loaded)
    (fits : ∀ m ∈ walk 1 loaded, m.1 ≤ limits.frames) :
    IsJson loaded ∧ normalizeJsonRoundTrip limits loaded exception = .ok loaded := by
  have json := isJson_of_jsonRoundTrip read
  exact ⟨json, normalizeJsonRoundTrip_of_ok (json.normalizeJsonValue_iff.mpr fits)⟩

/-- A value that is left as it is had room for every level. -/
theorem fits_of_again {loaded : PyObject} (json : IsJson loaded)
    (again : normalizeJsonRoundTrip limits loaded exception = .ok loaded) :
    ∀ m ∈ walk 1 loaded, m.1 ≤ limits.frames := by
  have ended := @errorOf_normalizeJsonValue limits.frames loaded limits.frames 1 rfl one_pos
  rw [← json.normalizeJsonValue_iff]
  cases short : normalizeJsonValue limits.frames loaded with
  | ok n => rw [json.eq_of_normalizeJsonValue _ n short]
  | error e =>
      -- nothing in a value in normal form stops the walk but its depth
      rw [short, errorOf, walkError, eq_comm, Option.map_eq_some_iff] at ended
      rcases ended with ⟨m, found, stopped⟩
      have plain := json.plain 1 m (List.mem_of_find?_eq_some found)
      have stops := List.find?_some found
      have deep : limits.frames < m.1 := by simpa [Stops, plain] using stops
      rw [stopOf, if_pos deep] at stopped
      unfold normalizeJsonRoundTrip at again
      rw [short, ← stopped] at again
      cases again

/-- Where the round trip answers with a JSON value and agrees with the shortcut, the function is
faithful. -/
theorem faithful_of_read {loaded : PyObject}
    (shortcut : ∀ n, normalizeJsonValue limits.frames value = .ok n → n = loaded)
    (same : normalizeJsonRoundTrip limits value exception = .ok loaded)
    (read : jsonRoundTrip limits value = .ok loaded)
    (fits : ∀ m ∈ walk 1 loaded, m.1 ≤ limits.frames) : Faithful limits value exception where
  shortcut n short := by rw [shortcut n short, read]
  refuses := by
    rw [same, read]
    exact ⟨nofun, fun ⟨e, fails⟩ => nomatch fails⟩
  only e raised := by
    rw [same] at raised
    cases raised
  result r ok := by
    rw [same] at ok
    cases ok
    exact ⟨read, normalizeJsonRoundTrip_again read fits⟩

/-- Where both refuse, the function is faithful. -/
theorem faithful_of_refused (shortcut : ∀ n, normalizeJsonValue limits.frames value ≠ .ok n)
    (same : normalizeJsonRoundTrip limits value exception = .error exception)
    (refused : Refused (jsonRoundTrip limits value)) : Faithful limits value exception where
  shortcut n short := absurd short (shortcut n)
  refuses := ⟨fun _ => refused, fun _ => same⟩
  only e raised := by
    rw [same] at raised
    cases raised
    rfl
  result r ok := by
    rw [same] at ok
    cases ok

/-- Where the short cut gives up the decision is that of the round trip. -/
theorem normalizeJsonRoundTrip_of_typeError {message : String}
    (short : normalizeJsonValue limits.frames value = .error (.typeError message)) :
    normalizeJsonRoundTrip limits value exception =
      match jsonRoundTrip limits value with
      | .ok loaded => .ok loaded
      | .error e => .error (if isJsonError e then exception else e) := by
  unfold normalizeJsonRoundTrip
  rw [short]
  cases jsonRoundTrip limits value with
  | ok loaded => rfl
  | error e => cases e <;> rfl

/-- The shortcut gave up on a type: faithful exactly when the round trip has room. -/
theorem faithful_of_typeError {message : String}
    (given : isRecursionError exception = false)
    (short : normalizeJsonValue limits.frames value = .error (.typeError message)) :
    Faithful limits value exception ↔ RoundTripFits limits value := by
  have same := @normalizeJsonRoundTrip_of_typeError limits value exception message short
  have known := raisesKnown_jsonRoundTrip limits value
  constructor
  · intro faithful
    refine ⟨fun e fails => ?_, fun loaded read => ?_⟩
    · rw [fails] at same
      have only := faithful.only _ same
      cases caught : isJsonError e with
      | true => cases e <;> first | rfl | cases caught
      | false =>
          rw [caught, if_neg Bool.false_ne_true] at only
          rw [only]
          exact given
    · rw [read] at same
      rcases faithful.result loaded same with ⟨-, json, again⟩
      exact fits_of_again json again
  · rintro ⟨shallow, deep⟩
    cases read : jsonRoundTrip limits value with
    | ok loaded =>
        rw [read] at same
        exact faithful_of_read (fun n ok => nomatch short.symm.trans ok) same read (deep loaded read)
    | error e =>
        have caught : isJsonError e = true := by
          rcases known e read with caught | stack
          · exact caught
          · rw [shallow e read] at stack
            cases stack
        rw [read] at same
        dsimp only at same
        rw [caught, if_pos rfl] at same
        exact faithful_of_refused (fun n ok => nomatch short.symm.trans ok) same ⟨e, read⟩

/-- A float that is not finite is refused on both ways. -/
theorem faithful_of_valueError {message : String}
    (short : normalizeJsonValue limits.frames value = .error (.valueError message)) :
    Faithful limits value exception := by
  have same : normalizeJsonRoundTrip limits value exception = .error exception := by
    unfold normalizeJsonRoundTrip
    rw [short]
    rfl
  have refused : Refused (jsonRoundTrip limits value) := by
    rw [jsonRoundTrip_eq]
    exact (refused_of_valueError value limits.frames limits.writes message short).bind _
  exact faithful_of_refused (fun n ok => nomatch short.symm.trans ok) same refused

/-- The shortcut answered: faithful exactly when the round trip has room. -/
theorem faithful_of_ok {normalized : PyObject}
    (short : normalizeJsonValue limits.frames value = .ok normalized) :
    Faithful limits value exception ↔ RoundTripFits limits value := by
  have same := @normalizeJsonRoundTrip_of_ok limits value exception normalized short
  constructor
  · intro faithful
    have read := faithful.shortcut normalized short
    refine ⟨fun e fails => ?_, fun loaded loads_ => ?_⟩
    · rw [read] at fails
      cases fails
    · have one : loaded = normalized := Except.ok.inj (loads_.symm.trans read)
      rcases faithful.result normalized same with ⟨-, json, again⟩
      rw [one]
      exact fits_of_again json again
  · rintro ⟨shallow, deep⟩
    rcases @jsonRoundTrip_of_normalizeJsonValue limits _ _ _ short with
      ⟨loaded, read, rfl⟩ | ⟨e, fails, stack⟩
    · exact faithful_of_read (fun n ok => Except.ok.inj (ok.symm.trans short)) same read
        (deep loaded read)
    · rw [shallow e fails] at stack
      cases stack

/-- Normalizing is faithful exactly where the stack is deep enough. -/
theorem json_normalization_faithful_iff (limits : RecursionLimits) (value : PyObject)
    (exception : PyError) (given : isRecursionError exception = false) :
    Faithful limits value exception ↔ Fits limits value := by
  have ended := @errorOf_normalizeJsonValue limits.frames value limits.frames 1 rfl one_pos
  cases short : normalizeJsonValue limits.frames value with
  | ok normalized =>
      rw [short, errorOf, eq_comm, walkError, Option.map_eq_none_iff] at ended
      rw [faithful_of_ok short, Fits, ended]
      simp
  | error e =>
      rw [short, errorOf, eq_comm, walkError, Option.map_eq_some_iff] at ended
      rcases ended with ⟨m, found, stopped⟩
      have fits : Fits limits value ↔
          m.1 ≤ limits.frames ∧ (m.2 = .notFinite ∨ RoundTripFits limits value) := by
        rw [Fits, found]
        simp
      rw [fits]
      unfold stopOf at stopped
      split at stopped
      · -- the stack has ended the walk, and nothing catches that
        rename_i deep
        constructor
        · intro faithful
          have escapes : normalizeJsonRoundTrip limits value exception = .error e := by
            unfold normalizeJsonRoundTrip
            rw [short, ← stopped]
            rfl
          have same := faithful.only e escapes
          rw [← same, ← stopped] at given
          cases given
        · exact fun fits => absurd fits.1 (by omega)
      · rename_i reached
        have reached : m.1 ≤ limits.frames := by omega
        split at stopped
        · rename_i notFinite
          exact iff_of_true (faithful_of_valueError (stopped ▸ short)) ⟨reached, .inl notFinite⟩
        · rename_i other
          rw [faithful_of_typeError given (stopped ▸ short)]
          simp [reached, other]

end RoundTrip

/-! ## A list nested too deep -/

/-- `[[…[]…]]`, with so many brackets around the innermost list. -/
def nestedList : Nat → PyObject
  | 0 => .list []
  | n + 1 => .list [nestedList n]

/-- A list nested as deep as the stack has frames is too deep. -/
theorem normalizeJsonValue_nestedList (frames : Nat) :
    ∀ n, frames ≤ n → normalizeJsonValue frames (nestedList n) = .error (tooDeep "") := by
  induction frames with
  | zero =>
      intro n _
      cases n <;> rfl
  | succ frames ih =>
      intro n deep
      cases n with
      | zero => omega
      | succ n =>
          have inner := ih n (by omega)
          simp only [nestedList, normalizeJsonValue, normalizeItems, inner]
          rfl

/-- Behind a list nested too deep stands a float that is not finite.  The round trip refuses it, as
it does without the list; normalizing ends with a `RecursionError` and not with the exception it was
given. -/
theorem deep_list_escapes : ¬ Faithful ⟨1000, 10000, 10000⟩
    (.list [nestedList 1500, .float .nan]) (.enqueueError "payload must be JSON round-trippable") := by
  intro faithful
  have inner := normalizeJsonValue_nestedList 999 1500 (by omega)
  have escapes : normalizeJsonRoundTrip ⟨1000, 10000, 10000⟩
      (.list [nestedList 1500, .float .nan])
      (.enqueueError "payload must be JSON round-trippable") = .error (tooDeep "") := by
    simp only [normalizeJsonRoundTrip, normalizeJsonValue, normalizeItems, inner]
    rfl
  cases faithful.only _ escapes

/-- The keys `1` and `"1"` are one in JSON, with the last of their values. -/
example (exception : PyError) : normalizeJsonRoundTrip ⟨1000, 10000, 10000⟩
    (.dict [(.int 1, .none), (.str "1", .tuple [.bool true])]) exception =
      .ok (strDict [("1", .list [.bool true])]) := by
  rfl

/-- A dict whose keys `1` and `"1"` become one, and a tuple that becomes a list. -/
theorem json_normalization_faithful_iff_of_keys : Faithful ⟨1000, 10000, 10000⟩
    (.dict [(.int 1, .none), (.str "1", .tuple [.bool true])])
    (.enqueueError "payload must be JSON round-trippable") := by
  have read : jsonRoundTrip ⟨1000, 10000, 10000⟩
      (.dict [(.int 1, .none), (.str "1", .tuple [.bool true])]) =
        .ok (strDict [("1", .list [.bool true])]) := rfl
  refine (json_normalization_faithful_iff _ _ _ rfl).mpr ⟨by decide, .inr ⟨?_, ?_⟩⟩
  · intro e fails
    rw [read] at fails
    cases fails
  · intro loaded ok
    rw [read] at ok
    cases ok
    decide

end DjQueue.Payloads
