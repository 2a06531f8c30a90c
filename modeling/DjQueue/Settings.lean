import DjQueue.Models
import DjQueue.Relational.Session

/-!
# Exceptions, task options, configuration and the session

What the operations read besides the database: the exceptions they raise, the Python
values a task option may hold, the imported tasks, and the backend configuration.

`World` is what one process works on: the shared database and what its
`timezone.now()` and `uuid4()` calls will return, in order.  Nothing is assumed of the
clock or of the identifiers.
-/

namespace DjQueue

open Relational

/-! ## Exceptions -/

/-- The exceptions of the package, of Django and of Python that the model tells apart. -/
inductive PyError where
  | enqueueError (message : String)
  | dispatchPolicyError (message : String)
  | claimedDoesNotExist
  | failedDoesNotExist
  | recurringExecutionDoesNotExist
  | integrityError
  | dataError (message : String)
  | valueError (message : String)
  | typeError (message : String)
  | importError (message : String)
  | attributeError (message : String)
  | indexError (message : String)
  | overflowError (message : String)
  | recursionError (message : String)
  | osError (message : String)
  | zoneInfoNotFoundError (message : String)
deriving DecidableEq, Repr

/-- `str(error)` -/
def PyError.message : PyError → String
  | .enqueueError m | .dispatchPolicyError m | .dataError m | .valueError m | .typeError m
  | .importError m | .attributeError m | .indexError m | .overflowError m | .recursionError m
  | .osError m | .zoneInfoNotFoundError m => m
  | .claimedDoesNotExist | .failedDoesNotExist | .recurringExecutionDoesNotExist
  | .integrityError => ""

theorem bind_eq_ok {α β : Type} {x : Except PyError α} {f : α → Except PyError β} {b : β}
    (h : (x >>= f) = .ok b) : ∃ a, x = .ok a ∧ f a = .ok b := by
  cases x with
  | error e => cases h
  | ok a => exact ⟨a, rfl, h⟩

/-- A sequence that raised: one of its parts did. -/
theorem bind_eq_error {α β : Type} {x : Except PyError α} {f : α → Except PyError β} {e : PyError}
    (h : (x >>= f) = .error e) : x = .error e ∨ ∃ a, x = .ok a ∧ f a = .error e := by
  cases x with
  | error e' =>
      cases h
      exact Or.inl rfl
  | ok a => exact Or.inr ⟨a, rfl, h⟩

/-- `exception_path(error)` of the one exception the operations persist themselves. -/
def dispatchPolicyErrorPath : String := "dj_queue.exceptions.DispatchPolicyError"

/-- `repr` of a `str`, for names without quotes or backslashes. -/
def pyRepr (s : String) : String := "\x27" ++ s ++ "\x27"

/-- The refusal of a job of another backend. -/
def belongsToBackend (id : JobId) (backendAlias : String) : PyError :=
  .enqueueError s!"job {id} belongs to backend {pyRepr backendAlias}"

/-- The refusal of a job that already has a row. -/
def alreadyHasState (id : JobId) : PyError :=
  .enqueueError s!"job {id} already has an execution-state row"

/-! ## Python values -/

/-- The value of a task option. -/
inductive PyValue where
  | none
  | bool (b : Bool)
  | int (n : Int)
  | str (s : String)
  | other (text : String)
deriving DecidableEq, Repr

/-- `str(value)` -/
def PyValue.text : PyValue → String
  | .none => "None"
  | .bool b => if b then "True" else "False"
  | .int n => toString n
  | .str s => s
  | .other s => s

/-- The zeros of the decimal digit runs of Unicode 15. -/
def decimalZeros : List Nat :=
  [0x30, 0x660, 0x6f0, 0x7c0, 0x966, 0x9e6, 0xa66, 0xae6, 0xb66, 0xbe6, 0xc66, 0xce6, 0xd66,
    0xde6, 0xe50, 0xed0, 0xf20, 0x1040, 0x1090, 0x17e0, 0x1810, 0x1946, 0x19d0, 0x1a80, 0x1a90,
    0x1b50, 0x1bb0, 0x1c40, 0x1c50, 0xa620, 0xa8d0, 0xa900, 0xa9d0, 0xa9f0, 0xaa50, 0xabf0,
    0xff10, 0x104a0, 0x10d30, 0x11066, 0x110f0, 0x11136, 0x111d0, 0x112f0, 0x11450, 0x114d0,
    0x11650, 0x116c0, 0x11730, 0x118e0, 0x11950, 0x11c50, 0x11d50, 0x11da0, 0x11f50, 0x16a60,
    0x16ac0, 0x16b50, 0x1d7ce, 0x1d7d8, 0x1d7e2, 0x1d7ec, 0x1d7f6, 0x1e140, 0x1e2f0, 0x1e4f0,
    0x1e950, 0x1fbf0]

/-- The digit a decimal character stands for. -/
def decimalDigit (c : Char) : Option Nat :=
  (decimalZeros.find? (fun z => z ≤ c.toNat && c.toNat < z + 10)).map (fun z => c.toNat - z)

/-- The characters of `str.isspace` -/
def whitespaceCodes : List Nat :=
  [0x9, 0xa, 0xb, 0xc, 0xd, 0x1c, 0x1d, 0x1e, 0x1f, 0x20, 0x85, 0xa0, 0x1680, 0x2000, 0x2001,
    0x2002, 0x2003, 0x2004, 0x2005, 0x2006, 0x2007, 0x2008, 0x2009, 0x200a, 0x2028, 0x2029,
    0x202f, 0x205f, 0x3000]

/-- `str.strip()`, on characters. -/
def pyStrip (cs : List Char) : List Char :=
  let space : Char → Bool := fun c => whitespaceCodes.contains c.toNat
  ((cs.dropWhile space).reverse.dropWhile space).reverse

/-- `str.isdecimal()`, on characters. -/
def isDecimal (cs : List Char) : Bool :=
  !cs.isEmpty && cs.all (fun c => (decimalDigit c).isSome)

/-- `int(text)` of decimal characters. -/
def decimalNumber (cs : List Char) : Int :=
  cs.foldl (fun n c => 10 * n + ((decimalDigit c).getD 0 : Nat)) 0

/-- `sys.get_int_max_str_digits()` -/
def intMaxStrDigits : Nat := 4300

/-- The number `_positive_int_option` reads, before its sign is checked. -/
def intOption (value : PyValue) (name : String) : Except PyError Int :=
  match value with
  | .int n => pure n
  | .str s =>
      let normalized := pyStrip s.toList
      let unsigned := if normalized.head? = some '+' then normalized.tail else normalized
      if !isDecimal unsigned then throw (.enqueueError s!"{name} must be a positive integer")
      else if intMaxStrDigits < unsigned.length then
        throw (.valueError "Exceeds the limit for integer string conversion")
      else pure (decimalNumber unsigned)
  | .bool _ | .none | .other _ => throw (.enqueueError s!"{name} must be a positive integer")

/-- An option that must be a positive integer. -/
def positiveIntOption (value : PyValue) (name : String) : Except PyError Int := do
  let number ← intOption value name
  if number ≤ 0 then throw (.enqueueError s!"{name} must be a positive integer")
  else pure number

/-! ## Tasks -/

/-- A task with the concurrency options `_task_option` finds on it or on its function. -/
structure Task where
  modulePath : String
  queueName : String
  priority : Int
  runAfter : Option Time
  concurrencyLimit : Option PyValue
  concurrencyDuration : Option PyValue
  onConflict : Option PyValue
deriving DecidableEq, Repr

/-- What `import_string` finds: a Django task, or an object with none of its attributes. -/
inductive Imported where
  | task (t : Task)
  | object
deriving DecidableEq, Repr

/-- What a task's `concurrency_key` option comes to at the arguments of one call. -/
inductive KeyValue where
  | unset
  | value (v : PyValue)
  /-- The template does not format. -/
  | unresolvable
  /-- Neither a string nor a callable. -/
  | malformed
  | raised (e : PyError)
deriving DecidableEq, Repr

/-- One task call.  `payload` is absent when the arguments do not survive a JSON round trip. -/
structure TaskCall where
  task : Task
  payload : Option Payload
  key : KeyValue
deriving DecidableEq, Repr

/-! ## Configuration -/

/-- The database families. -/
inductive BackendFamily where
  | postgresql | mysql | mariadb | sqlite
deriving DecidableEq, Repr

/-- Which families lock no rows, but the whole database. -/
def BackendFamily.usesSerializedWrites (f : BackendFamily) : Bool := f == .sqlite

/-- The numbers of a 32-bit integer. -/
def int4 (n : Int) : Bool := -2147483648 ≤ n && n ≤ 2147483647

/-- The numbers of a 64-bit integer. -/
def int8 (n : Int) : Bool := -9223372036854775808 ≤ n && n ≤ 9223372036854775807

/-- What an integer column of the family holds; SQLite's are 64 bits wide, and so are the
parameters it takes. -/
def BackendFamily.holds : BackendFamily → Int → Bool
  | .sqlite, n => int8 n
  | _, n => int4 n

/-- A column that holds a number holds those between it and zero. -/
theorem BackendFamily.holds_of_between {family : BackendFamily} {x n : Int} (nonneg : 0 ≤ x)
    (le : x ≤ n) (holds : family.holds n = true) : family.holds x = true := by
  cases family <;> simp only [BackendFamily.holds, int4, int8, Bool.and_eq_true,
    decide_eq_true_eq] at holds ⊢ <;> omega

/-- What a statement raises that meets a number out of range. -/
def BackendFamily.outOfRange : BackendFamily → PyError
  | .sqlite => .overflowError "Python int too large to convert to SQLite INTEGER"
  | _ => .dataError "integer out of range"

/-- `args` and `kwargs` as the settings have them: unlike those of a dynamic task they are not
made JSON values first. -/
structure ConfiguredPayload where
  args : List Payloads.PyObject
  kwargs : List (Payloads.PyObject × Payloads.PyObject)
deriving Repr

/-- `{"args": list(args), "kwargs": dict(kwargs)}` -/
def ConfiguredPayload.value (p : ConfiguredPayload) : Payloads.PyObject :=
  Payloads.strDict [("args", .list p.args), ("kwargs", .dict p.kwargs)]

/-- One entry of the recurring tasks configured. -/
structure RecurringTaskConfig where
  key : String
  taskPath : String
  schedule : String
  payload : ConfiguredPayload
  queueName : String
  priority : Int
  description : String
deriving Repr

/-- `BackendConfig` with its defaults, and the family of its database. -/
structure Config where
  backendAlias : String := "default"
  allowedQueues : List String := []
  preserveFinishedJobs : Bool := true
  clearFinishedJobsAfter : Option Int := some 86400
  clearFailedJobsAfter : Option Int := none
  clearRecurringExecutionsAfter : Option Int := none
  defaultConcurrencyDuration : Int := 180
  recurring : List RecurringTaskConfig := []
  family : BackendFamily
deriving Repr

/-- `dj_queue.cron`, as far as the recurring operations call it. -/
structure Cron where
  isValidCron : String → Bool
  nextCronRun : String → Time → Except PyError Time
  latestCronRun : String → Time → Except PyError Time

/-- The configuration an operation runs with, and what its process can import and call.
`concurrencyKey` is what a task's `concurrency_key` option, user code that may be a callable,
comes to at the arguments of a call. -/
structure Env where
  config : Config
  importString : String → Except PyError Imported
  concurrencyKey : Task → Payload → KeyValue
  cron : Cron
  limits : Payloads.RecursionLimits := {}

/-- A process that imports no task and knows no schedule. -/
def Env.ofConfig (config : Config) : Env where
  config := config
  importString path := .error (.importError path)
  concurrencyKey _ _ := .unset
  cron :=
    { isValidCron := fun _ => false
      nextCronRun := fun _ _ => .error (.valueError "invalid cron schedule")
      latestCronRun := fun _ _ => .error (.valueError "invalid cron schedule") }

/-! ## Sessions on the queue database -/

/-- The database, the readings of the clock to come, and the ids to be drawn. -/
structure World where
  db : Db
  clock : Nat → Time
  uuids : Nat → JobId

/-- An operation on the database. -/
abbrev Op (α : Type) := EStateM PyError World α

/-- `timezone.now()`: the next reading. -/
def timezoneNow : Op Time := fun w =>
  .ok (w.clock 0) { w with clock := fun n => w.clock (n + 1) }

/-- `uuid4()`: the next reading. -/
def uuid4 : Op JobId := fun w =>
  .ok (w.uuids 0) { w with uuids := fun n => w.uuids (n + 1) }

/-- The database as it stands. -/
def getDb : Op Db := fun w => .ok w.db w

/-- A write. -/
def modifyDb (f : Db → Db) : Op Unit := fun w => .ok () { w with db := f w.db }

/-- `transaction.atomic`: a raise rolls the database back, the readings are spent. -/
def transactionAtomic {α : Type} (x : Op α) : Op α :=
  atomic (fun before after => { after with db := before.db }) x

/-- `datetime.min`, in UTC. -/
def minTime : Time := -62135596800000000

/-- `datetime.max`, in UTC. -/
def maxTime : Time := 253402300799999999

/-- A time a `datetime` can hold. -/
def isDatetime (t : Time) : Bool := minTime ≤ t && t ≤ maxTime

/-- The `OverflowError` of a date beyond the range of `datetime` -/
def dateOutOfRange : PyError := .overflowError "date value out of range"

/-- `now + timedelta(seconds=…)` -/
def addSeconds (now : Time) (n : Int) : Except PyError Time :=
  if isDatetime (now + seconds n) then pure (now + seconds n) else throw dateOutOfRange

/-- A statement that computes or stores these numbers is refused when one is out of range. -/
def ensureFits (family : BackendFamily) (numbers : List Int) : Op Unit :=
  runIf (!numbers.all family.holds) (throw family.outOfRange)

/-- A `LIMIT` slice `[:n]`; Django refuses a negative bound. -/
def sliceTo {α : Type} (n : Int) (rows : List α) : Op (List α) :=
  if n < 0 then throw (.valueError "Negative indexing is not supported.")
  else pure (rows.take n.toNat)

section Runs

variable {w w' : World}

theorem of_run_timezoneNow {now : Time} (run : Runs timezoneNow w now w') : w'.db = w.db := by
  cases run
  rfl

theorem addSeconds_eq_ok {now : Time} {n : Int} (holds : isDatetime (now + seconds n) = true) :
    addSeconds now n = .ok (now + seconds n) := by
  rw [addSeconds, if_pos holds]
  rfl

theorem of_addSeconds {now t : Time} {n : Int} (added : addSeconds now n = .ok t) :
    t = now + seconds n ∧ isDatetime (now + seconds n) = true := by
  unfold addSeconds at added
  split at added
  next holds =>
    cases added
    exact ⟨rfl, holds⟩
  · cases added

/-- A deadline that was computed is the sum. -/
theorem of_run_addSeconds {now t : Time} {n : Int}
    (run : Runs (MonadExcept.ofExcept (addSeconds now n) : Op Time) w t w') :
    t = now + seconds n ∧ isDatetime (now + seconds n) = true ∧ w' = w := by
  obtain ⟨added, rfl⟩ := Runs.of_ofExcept run
  exact ⟨(of_addSeconds added).1, (of_addSeconds added).2, rfl⟩

theorem runs_addSeconds {now : Time} {n : Int} (holds : isDatetime (now + seconds n) = true)
    (w : World) : Runs (MonadExcept.ofExcept (addSeconds now n) : Op Time) w (now + seconds n) w :=
  runs_ofExcept (addSeconds_eq_ok holds) w

theorem fails_addSeconds {now : Time} {n : Int} (beyond : isDatetime (now + seconds n) = false)
    (w : World) : Fails (MonadExcept.ofExcept (addSeconds now n) : Op Time) w dateOutOfRange := by
  rw [addSeconds, beyond]
  exact Fails.of_throw _ _

/-- Numbers that fit, and nothing changed. -/
theorem of_run_ensureFits {family : BackendFamily} {numbers : List Int} {u : Unit}
    (run : Runs (ensureFits family numbers) w u w') :
    numbers.all family.holds = true ∧ w' = w := by
  rcases Runs.of_runIf run with ⟨-, thrown⟩ | ⟨fits, rfl⟩
  · exact (Runs.of_throw thrown).elim
  · exact ⟨by simpa using fits, rfl⟩

theorem runs_ensureFits {family : BackendFamily} {numbers : List Int}
    (fits : numbers.all family.holds = true) (w : World) :
    Runs (ensureFits family numbers) w () w := by
  rw [ensureFits, fits]
  exact runs_pure _ _

theorem fails_ensureFits {family : BackendFamily} {numbers : List Int}
    (beyond : numbers.all family.holds = false) (w : World) :
    Fails (ensureFits family numbers) w family.outOfRange := by
  rw [ensureFits, beyond]
  exact Fails.of_throw _ _

/-- A transaction that raises leaves the database as it was. -/
theorem db_of_raises_transactionAtomic {α : Type} {x : Op α} {e : PyError}
    (raised : Raises (transactionAtomic x) w e w') : w'.db = w.db := by
  obtain ⟨m, -, rfl⟩ := Raises.of_atomic raised
  rfl

/-- A transaction whose body fails raises, and leaves the rows. -/
theorem raises_transactionAtomic {α : Type} {x : Op α} {e : PyError} (body : Fails x w e) :
    ∃ w', Raises (transactionAtomic x) w e w' ∧ w'.db = w.db := by
  obtain ⟨t, raised⟩ := Fails.atomic body
  exact ⟨_, raised, rfl⟩

/-- The database read is the one there. -/
theorem of_run_getDb {db : Db} (run : Runs getDb w db w') : db = w.db ∧ w' = w := by
  cases run
  exact ⟨rfl, rfl⟩

theorem of_run_modifyDb {f : Db → Db} {u : Unit} (run : Runs (modifyDb f) w u w') :
    w'.db = f w.db := by
  cases run
  rfl

theorem runs_getDb (w : World) : Runs getDb w w.db w := rfl

theorem runs_timezoneNow (w : World) :
    Runs timezoneNow w (w.clock 0) { w with clock := fun n => w.clock (n + 1) } := rfl

theorem runs_modifyDb (f : Db → Db) (w : World) :
    Runs (modifyDb f) w () { w with db := f w.db } := rfl

theorem of_run_sliceTo {α : Type} {n : Int} {rows taken : List α}
    (run : Runs (sliceTo n rows) w taken w') : taken = rows.take n.toNat ∧ w' = w := by
  unfold sliceTo at run
  split at run
  · exact (Runs.of_throw run).elim
  · exact Runs.of_pure run

end Runs

/-! ## What a raise leaves -/

/-- Whatever the session raises, the database is as it was. -/
def RollsBack {α : Type} (x : Op α) : Prop :=
  ∀ w e w', Raises x w e w' → w'.db = w.db

/-- The session writes nothing. -/
structure Reads {α : Type} (x : Op α) : Prop where
  returns : ∀ w a w', Runs x w a w' → w'.db = w.db
  raises : RollsBack x

section RollsBack

variable {α β : Type}

theorem RollsBack.atomic (x : Op α) : RollsBack (transactionAtomic x) :=
  fun _ _ _ raised => db_of_raises_transactionAtomic raised

theorem RollsBack.bind {x : Op α} {f : α → Op β} (reads : Reads x)
    (rest : ∀ a, RollsBack (f a)) : RollsBack (x >>= f) := by
  intro w e w' raised
  rcases Raises.of_bind raised with early | ⟨a, m, first, late⟩
  · exact reads.raises _ _ _ early
  · exact (rest a _ _ _ late).trans (reads.returns _ _ _ first)

theorem Reads.pure (a : α) : Reads (Pure.pure a : Op α) where
  returns w _ _ run := by rw [(Runs.of_pure run).2]
  raises w _ _ raised := by cases raised

theorem Reads.throw (e : PyError) : Reads (throw e : Op α) where
  returns _ _ _ run := (Runs.of_throw run).elim
  raises _ _ _ raised := by
    cases raised
    rfl

theorem Reads.bind {x : Op α} {f : α → Op β} (reads : Reads x) (rest : ∀ a, Reads (f a)) :
    Reads (x >>= f) where
  returns w b w' run := by
    obtain ⟨a, m, first, second⟩ := Runs.of_bind run
    exact ((rest a).returns _ _ _ second).trans (reads.returns _ _ _ first)
  raises := RollsBack.bind reads fun a => (rest a).raises

theorem Reads.getDb : Reads getDb where
  returns _ _ _ run := by rw [(of_run_getDb run).2]
  raises _ _ _ raised := by cases raised

theorem Reads.timezoneNow : Reads timezoneNow where
  returns _ _ _ run := of_run_timezoneNow run
  raises _ _ _ raised := by cases raised

theorem Reads.ofExcept (x : Except PyError α) : Reads (MonadExcept.ofExcept x : Op α) := by
  cases x with
  | ok a => exact Reads.pure a
  | error e => exact Reads.throw e

theorem Reads.sliceTo (n : Int) (rows : List α) : Reads (sliceTo n rows) := by
  unfold DjQueue.sliceTo
  split
  · exact Reads.throw _
  · exact Reads.pure _

theorem Reads.ensureFits (family : BackendFamily) (numbers : List Int) :
    Reads (ensureFits family numbers) := by
  unfold DjQueue.ensureFits runIf
  split
  · exact Reads.throw _
  · exact Reads.pure _

end RollsBack

end DjQueue
