import DjQueue.Operations.Concurrency

/-!
# Sequences of slot operations

The operations on the semaphore of one key, each one transaction, run one after another by any
processes.  Between two of them the other tables may change in any way: `others` holds them as the
next call finds them.
-/

namespace DjQueue

open Relational

/-- A call of a slot operation on the key of the sequence. -/
inductive SlotCall where
  | semaphoreAcquire (limit durationSeconds : Int)
  | semaphoreAcquireMany (count limit durationSeconds : Int)
  | semaphoreRelease (limit durationSeconds : Int)
  | unblockNextBlockedJob (limit durationSeconds : Int) (mode : SlotHandoffMode)
  | releaseConcurrencySlot (job : Job) (task : Option Imported)
  | releaseRecoveredConcurrencyGroup (releaseCount : Nat) (limit durationSeconds : Int)

/-- What a call returns. -/
inductive SlotResult where
  | acquired (given : Bool)
  | acquiredMany (count : Int)
  | released (updated : Bool)
  | unblocked (job : Option JobRef)
  | done
  | promoted (jobs : List Job)

/-- The operation a call stands for, with what it returns. -/
def SlotCall.run (env : Env) (key : String) : SlotCall → Op SlotResult
  | semaphoreAcquire limit durationSeconds => transactionAtomic do
      let given ← DjQueue.semaphoreAcquire env key limit durationSeconds
      pure (.acquired given)
  | semaphoreAcquireMany count limit durationSeconds => transactionAtomic do
      let acquired ← DjQueue.semaphoreAcquireMany env key count limit durationSeconds
      pure (.acquiredMany acquired)
  | semaphoreRelease limit durationSeconds => transactionAtomic do
      let updated ← DjQueue.semaphoreRelease env key limit durationSeconds
      pure (.released updated)
  | unblockNextBlockedJob limit durationSeconds mode => transactionAtomic do
      let job ← DjQueue.unblockNextBlockedJob env key limit durationSeconds mode
      pure (.unblocked job)
  | releaseConcurrencySlot job task => transactionAtomic do
      DjQueue.releaseConcurrencySlot env { job with concurrencyKey := some key } task
      pure .done
  | releaseRecoveredConcurrencyGroup releaseCount limit durationSeconds => transactionAtomic do
      let jobs ← DjQueue.releaseRecoveredConcurrencyGroup env key releaseCount limit durationSeconds
      pure (.promoted jobs)

/-- One call with the process that makes it, what it reads, and what others wrote before. -/
structure SlotStep where
  env : Env
  call : SlotCall
  clock : Nat → Time
  uuids : Nat → JobId
  others : Option Db

/-- The tables with this semaphore table. -/
def Db.withSemaphores (db : Db) (t : Table Semaphore) : Db := { db with semaphores := t }

/-- The tables the call of a step finds. -/
def SlotStep.start (step : SlotStep) (db : Db) : Db :=
  match step.others with
  | none => db
  | some others => others.withSemaphores db.semaphores

/-- The world a step starts in. -/
def SlotStep.world (step : SlotStep) (db : Db) : World :=
  ⟨step.start db, step.clock, step.uuids⟩

/-- The result of every call, and the tables after it. -/
def slotTrace (key : String) : Db → List SlotStep → List (Except PyError SlotResult × Db)
  | _, [] => []
  | db, step :: rest =>
      match step.call.run step.env key (step.world db) with
      | .ok result w => (.ok result, w.db) :: slotTrace key w.db rest
      | .error e w => (.error e, w.db) :: slotTrace key w.db rest

end DjQueue
