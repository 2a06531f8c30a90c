import DjQueue.Relational.Attempts
import DjQueue.Settings

/-!
# Retrying a transaction

`retry_transient_database_errors` of `db.py`.  The operations are written for a database that does
what it is told; here it may break any transaction off, with an exception of its own that carries
the causes the driver gave it.
-/

namespace DjQueue

open Relational

/-! ## The exceptions of the database -/

/-- An exception object; the causes are other objects, and `message` is `str(error).lower()`. -/
structure DriverError (n : Nat) where
  isOperationalError : Bool
  pgcode : Option String
  sqlstate : Option String
  sqliteErrorcode : Option Int
  errno : Option Int
  firstArg : Option Int
  message : List Char
  cause : Option (Fin n)
  context : Option (Fin n)

/-- What the database raised, among the exceptions it refers to. -/
structure DatabaseError where
  size : Nat
  errors : Fin size → DriverError size
  raised : Fin size

/-- `TRANSIENT_DATABASE_ERROR_SQLSTATES` -/
def transientSqlstates : List String := ["40001", "40P01", "55P03"]

/-- `TRANSIENT_DATABASE_ERROR_ERRNOS` -/
def transientErrnos : List Int := [1205, 1213]

/-- `TRANSIENT_DATABASE_SQLITE_CODES` -/
def transientSqliteCodes : List Int := [5, 6, 261, 262, 517]

/-- `TRANSIENT_DATABASE_ERROR_MESSAGES` -/
def transientMessages : List String :=
  ["deadlock", "lock wait timeout", "try restarting transaction", "could not serialize access",
    "database is locked"]

namespace DriverError

variable {n : Nat}

/-- `error.__cause__ or error.__context__` -/
def next (e : DriverError n) : Option (Fin n) := e.cause.or e.context

/-- `_transient_sqlstate` -/
def transientSqlstate (e : DriverError n) : Bool :=
  e.pgcode.any transientSqlstates.contains || e.sqlstate.any transientSqlstates.contains

/-- `_transient_errno` -/
def transientErrno (e : DriverError n) : Bool :=
  e.sqliteErrorcode.any transientSqliteCodes.contains || e.errno.any transientErrnos.contains ||
    e.firstArg.any transientErrnos.contains

/-- A code of PostgreSQL or MySQL. -/
def hasTransientCode (e : DriverError n) : Bool := e.transientSqlstate || e.transientErrno

/-- A phrase of the message. -/
def hasTransientMessage (e : DriverError n) : Bool :=
  transientMessages.any (fun marker => decide (marker.toList <:+: e.message))

end DriverError

namespace DatabaseError

/-- `_exception_chain` -/
def exceptionChain (d : DatabaseError) : List (Fin d.size) :=
  chainFrom (fun i => (d.errors i).next) d.size [] (some d.raised)

/-- `is_transient_database_error` -/
def isTransient (d : DatabaseError) : Bool :=
  d.exceptionChain.any (fun i => (d.errors i).hasTransientCode) ||
    (d.errors d.raised).hasTransientMessage

/-- The exception is a cause of what was raised, at any distance. -/
def Leads (d : DatabaseError) : Fin d.size → Fin d.size → Prop :=
  Relation.ReflTransGen (fun i j => (d.errors i).next = some j)

end DatabaseError

/-- Every cause is looked at, and each one once, also where causes run in circles: an error is
transient exactly if some cause of it has a transient code, or its own message says so. -/
theorem transient_iff_some_cause (d : DatabaseError) :
    d.exceptionChain.Nodup ∧ (∀ i, i ∈ d.exceptionChain ↔ d.Leads d.raised i) ∧
      (d.isTransient = true ↔
        (∃ i, d.Leads d.raised i ∧ (d.errors i).hasTransientCode = true) ∨
          ∃ marker ∈ transientMessages, marker.toList <:+: (d.errors d.raised).message) := by
  have chain : ∀ i, i ∈ d.exceptionChain ↔ d.Leads d.raised i := by
    intro i
    have walk := @mem_chainFrom (Fin d.size) _ (fun i => (d.errors i).next) _ d.raised i
    rw [Fintype.card_fin] at walk
    exact walk
  refine ⟨chainFrom_nodup, chain, ?_⟩
  rw [DatabaseError.isTransient, Bool.or_eq_true, List.any_eq_true,
    DriverError.hasTransientMessage, List.any_eq_true]
  simp only [chain, decide_eq_true_eq]

/-! ## Transactions on a database that may break off -/

/-- A transaction is broken off with this error, after so many readings of the clock and so many new
keys. -/
structure Breakdown where
  error : DatabaseError
  readings : Nat
  keys : Nat

/-- A world, and which of the transactions to come will be broken off. -/
structure Exposed where
  world : World
  breakdowns : Nat → Option Breakdown

/-- The world after a statement broke down. -/
def World.later (w : World) (b : Breakdown) : World :=
  { w with clock := fun n => w.clock (n + b.readings), uuids := fun n => w.uuids (n + b.keys) }

/-- What is raised: by the operation, or by the database. -/
inductive Raised where
  | own (e : PyError)
  | database (d : DatabaseError)

/-- A transaction, with the database as it is. -/
def exposed {α : Type} (x : Op α) : EStateM Raised Exposed α := fun s =>
  let rest := fun n => s.breakdowns (n + 1)
  match s.breakdowns 0 with
  | some b => .error (.database b.error) ⟨s.world.later b, rest⟩
  | none =>
      match x s.world with
      | .ok a w => .ok a ⟨w, rest⟩
      | .error e w => .error (.own e) ⟨w, rest⟩

/-- The connection of the caller. -/
structure Connection where
  inAtomicBlock : Bool
  autocommit : Bool
deriving DecidableEq, Repr

/-- A transaction around the call is not its own to retry. -/
def Connection.callerOwned (c : Connection) : Bool := c.inAtomicBlock || !c.autocommit

/-- `TRANSIENT_DATABASE_RETRY_ATTEMPTS` -/
def transientDatabaseRetryAttempts : Nat := 3

/-- An `OperationalError` that is transient. -/
def Raised.retried : Raised → Bool
  | .own _ => false
  | .database d => (d.errors d.raised).isOperationalError && d.isTransient

/-- `retry_transient_database_errors` -/
def retryTransientDatabaseErrors {α : Type} (c : Connection)
    (operation : EStateM Raised Exposed α) : EStateM Raised Exposed α :=
  if c.callerOwned then operation
  else attempts Raised.retried (transientDatabaseRetryAttempts - 1) operation

end DjQueue
